import OddJob.Lib.Transition
import OddJob.Sql.RoundTrip

/-! The tables under any number of adders and fetchers. An insert is four
statements and may stop between any two of them; the status of its row hides the
job from every fetch until the last. -/

namespace OddJob.Sql

open Linq Transition

variable {Key CliType Value : Type} [LinearOrder Key]

/-- How far an `AddJob` has come, after its first statement. -/
inductive Point where
  | inserted
  | paramsCopied
  | genericsCopied
  | published
  deriving DecidableEq, Repr

def Point.hasParams : Point → Bool
  | .inserted => false
  | _ => true

def Point.hasGenerics : Point → Bool
  | .genericsCopied | .published => true
  | _ => false

structure Insertion where
  jobData : SerializableOddJob
  insertedId : Int
  point : Point := .inserted
  deriving DecidableEq

/-- The insert of the job comes so far. -/
def reach (insertions : List Insertion) (jobId : Guid) (point : Point) : List Insertion :=
  updateWhere (fun insertion => insertion.jobData.jobId = jobId)
    (fun insertion => { insertion with point }) insertions

structure Store where
  tables : Tables := {}
  insertions : List Insertion := []
  /-- the ids of the jobs that fetches have returned -/
  fetched : List Guid := []

namespace Store

/-- The jobs are told apart by their ids. -/
def knows (store : Store) (jobId : Guid) : Bool :=
  store.insertions.any fun insertion => insertion.jobData.jobId = jobId

def insert (store : Store) (jobData : SerializableOddJob) (now : Ticks) : Store :=
  let (tables, insertedId) := store.tables.insertMetaData jobData now
  { store with
    tables
    insertions := store.insertions ++ [{ jobData, insertedId }] }

/-- The next statement of an insert. -/
def proceed (store : Store) (insertion : Insertion) : Store :=
  match insertion.point with
  | .inserted => { store with
      tables := store.tables.copyParams insertion.jobData
      insertions := reach store.insertions insertion.jobData.jobId .paramsCopied }
  | .paramsCopied => { store with
      tables := store.tables.copyGenerics insertion.jobData
      insertions := reach store.insertions insertion.jobData.jobId .genericsCopied }
  | .genericsCopied => { store with
      tables := store.tables.publish insertion.insertedId
      insertions := reach store.insertions insertion.jobData.jobId .published }
  | .published => store

def claim (store : Store) (call : Claim Key) (scan : List SqlCommonDbOddJobMetaData) : Store :=
  { store with tables := { store.tables with queue := call.update scan store.tables.queue } }

/-- The read of a fetch changes no table. -/
def read (store : Store) (rows : List SqlQueueRowSet) : Store :=
  { store with fetched := store.fetched ++ rows.map fun row => row.metaData.jobGuid }

def mark (store : Store) (mark : Mark) (jobId : Guid) (now : Ticks) : Store :=
  { store with tables := mark.apply jobId now store.tables }

inductive Action (Key : Type) where
  | insert (jobData : SerializableOddJob) (now : Ticks)
  | proceed (jobId : Guid)
  | claim (call : Claim Key) (scan : List SqlCommonDbOddJobMetaData)
  | read (lockGuid : Guid) (rows : List SqlQueueRowSet)
  | mark (mark : Mark) (jobId : Guid) (now : Ticks)

/-- One statement of some client. Job ids are used once, and only jobs that were fetched
are marked; the clients' clocks may show anything. -/
def step (store : Store) : Action Key → Option Store
  | .insert jobData now => if store.knows jobData.jobId then none else some (store.insert jobData now)
  | .proceed jobId =>
    (store.insertions.find? fun insertion => insertion.jobData.jobId = jobId).map store.proceed
  | .claim call scan => if scan.Perm store.tables.queue then some (store.claim call scan) else none
  | .read lockGuid rows =>
    if Returns store.tables (fun q => q.lockGuid = some lockGuid) rows then some (store.read rows)
    else none
  | .mark mark jobId now => if jobId ∈ store.fetched then some (store.mark mark jobId now) else none

end Store

/-- A table holds the rows of exactly those inserts whose copy is `done`. -/
structure Copied {Row : Type} (insertions : List Insertion) (rows : List Row) (owner : Row → Guid)
    (data : SerializableOddJob → List Row) (done : Point → Bool) : Prop where
  exact : ∀ insertion ∈ insertions, ∀ row, row ∈ rows ∧ owner row = insertion.jobData.jobId ↔
    done insertion.point = true ∧ row ∈ data insertion.jobData
  owned : ∀ row ∈ rows, ∃ insertion ∈ insertions, insertion.jobData.jobId = owner row

theorem reach_ids (insertions : List Insertion) (jobId : Guid) (point : Point) :
    (reach insertions jobId point).map (fun insertion => insertion.jobData.jobId) =
      insertions.map fun insertion => insertion.jobData.jobId :=
  map_updateWhere _ (by intro _; rfl) _

theorem reach_insertedIds (insertions : List Insertion) (jobId : Guid) (point : Point) :
    (reach insertions jobId point).map Insertion.insertedId =
      insertions.map Insertion.insertedId :=
  map_updateWhere _ (by intro _; rfl) _

theorem mem_reach {insertions : List Insertion} {insertion other : Insertion} {point : Point}
    (distinct : (insertions.map fun insertion => insertion.jobData.jobId).Nodup)
    (member : insertion ∈ insertions) :
    other ∈ reach insertions insertion.jobData.jobId point ↔
      other = { insertion with point } ∨
        other ∈ insertions ∧ other.jobData.jobId ≠ insertion.jobData.jobId := by
  rw [reach, mem_updateWhere]
  constructor
  · rintro ⟨old, present, rfl⟩
    by_cases same : old.jobData.jobId = insertion.jobData.jobId
    · obtain rfl : old = insertion := List.inj_on_of_nodup_map distinct present member same
      simp
    · exact .inr (by simpa [same] using present)
  · rintro (rfl | ⟨present, different⟩)
    · exact ⟨insertion, member, by simp⟩
    · exact ⟨other, present, by simp [different]⟩

namespace Copied

variable {Row : Type} {insertions : List Insertion} {rows : List Row} {owner : Row → Guid}
  {data : SerializableOddJob → List Row} {done : Point → Bool} {insertion : Insertion}
  {point : Point}

theorem begin (valid : Copied insertions rows owner data done)
    (fresh : ∀ other ∈ insertions, other.jobData.jobId ≠ insertion.jobData.jobId)
    (nothing : done insertion.point = false) :
    Copied (insertions ++ [insertion]) rows owner data done := by
  constructor
  · intro other member row
    rcases List.mem_append.mp member with older | last
    · exact valid.exact other older row
    · obtain rfl := List.mem_singleton.mp last
      simp only [nothing, Bool.false_eq_true, false_and, iff_false]
      rintro ⟨present, same⟩
      obtain ⟨earlier, known, guid⟩ := valid.owned row present
      exact fresh earlier known (guid.trans same)
  · intro row present
    obtain ⟨other, known, same⟩ := valid.owned row present
    exact ⟨other, List.mem_append_left _ known, same⟩

private theorem owned_reach (valid : Copied insertions rows owner data done)
    (distinct : (insertions.map fun insertion => insertion.jobData.jobId).Nodup)
    (member : insertion ∈ insertions) (row : Row) (present : row ∈ rows) :
    ∃ other ∈ reach insertions insertion.jobData.jobId point, other.jobData.jobId = owner row := by
  obtain ⟨other, known, same⟩ := valid.owned row present
  by_cases moved : other.jobData.jobId = insertion.jobData.jobId
  · exact ⟨_, (mem_reach distinct member).mpr (.inl rfl), moved.symm.trans same⟩
  · exact ⟨other, (mem_reach distinct member).mpr (.inr ⟨known, moved⟩), same⟩

theorem keep (valid : Copied insertions rows owner data done)
    (distinct : (insertions.map fun insertion => insertion.jobData.jobId).Nodup)
    (member : insertion ∈ insertions) (same : done point = done insertion.point) :
    Copied (reach insertions insertion.jobData.jobId point) rows owner data done := by
  refine ⟨fun other moved row => ?_, valid.owned_reach distinct member⟩
  rcases (mem_reach distinct member).mp moved with rfl | ⟨known, _⟩
  · rw [same]
    exact valid.exact insertion member row
  · exact valid.exact other known row

theorem copy (valid : Copied insertions rows owner data done)
    (distinct : (insertions.map fun insertion => insertion.jobData.jobId).Nodup)
    (member : insertion ∈ insertions) (before : done insertion.point = false)
    (after : done point = true)
    (own : ∀ row ∈ data insertion.jobData, owner row = insertion.jobData.jobId) :
    Copied (reach insertions insertion.jobData.jobId point) (rows ++ data insertion.jobData)
      owner data done := by
  constructor
  · intro other moved row
    rw [List.mem_append]
    rcases (mem_reach distinct member).mp moved with rfl | ⟨known, different⟩
    · have none := valid.exact insertion member row
      simp only [before, Bool.false_eq_true, false_and, iff_false] at none
      simp only [after, true_and]
      constructor
      · rintro ⟨older | newer, same⟩
        · exact absurd ⟨older, same⟩ none
        · exact newer
      · exact fun newer => ⟨.inr newer, own row newer⟩
    · rw [← valid.exact other known row]
      constructor
      · rintro ⟨older | newer, same⟩
        · exact ⟨older, same⟩
        · exact absurd ((own row newer).symm.trans same).symm different
      · exact fun ⟨older, same⟩ => ⟨.inl older, same⟩
  · intro row present
    rcases List.mem_append.mp present with older | newer
    · exact valid.owned_reach distinct member row older
    · exact ⟨_, (mem_reach distinct member).mpr (.inl rfl), (own row newer).symm⟩

end Copied

namespace Store

/-- Rows and inserts go together, and the status of a row says whether its insert is done. -/
structure Valid (store : Store) : Prop where
  keys : store.tables.queue.map (fun row => (row.id, row.jobGuid)) =
    store.insertions.map fun insertion => (insertion.insertedId, insertion.jobData.jobId)
  ids : (store.insertions.map Insertion.insertedId).Nodup
  bounded : ∀ insertion ∈ store.insertions, insertion.insertedId < store.tables.nextId
  distinct : (store.insertions.map fun insertion => insertion.jobData.jobId).Nodup
  hidden : ∀ insertion ∈ store.insertions, insertion.point ≠ .published →
    insertion.jobData.jobId ∉ store.fetched ∧
    ∀ row ∈ store.tables.queue, row.jobGuid = insertion.jobData.jobId →
      row.status = .inserting ∧ row.lockGuid = none
  params : Copied store.insertions store.tables.params SqlCommonOddJobParamMetaData.jobGuid
    getParamDataForJob Point.hasParams
  generics : Copied store.insertions store.tables.generics SqlDbOddJobMethodGenericInfo.jobGuid
    getGenericDataForJob Point.hasGenerics
  fetched : ∀ jobId ∈ store.fetched, store.knows jobId = true

theorem knows_iff {store : Store} {jobId : Guid} :
    store.knows jobId = true ↔
      ∃ insertion ∈ store.insertions, insertion.jobData.jobId = jobId := by
  simp [knows]

theorem valid_empty : Valid {} where
  keys := rfl
  ids := List.nodup_nil
  bounded := by simp
  distinct := List.nodup_nil
  hidden := by simp
  params := ⟨by simp, by simp⟩
  generics := ⟨by simp, by simp⟩
  fetched := by simp

namespace Valid

variable {store : Store} {insertion other : Insertion} {row : SqlCommonDbOddJobMetaData}

theorem rowIds (valid : Valid store) :
    (store.tables.queue.map SqlCommonDbOddJobMetaData.id).Nodup := by
  have same := congrArg (List.map Prod.fst) valid.keys
  simp only [List.map_map, Function.comp_def] at same
  exact same ▸ valid.ids

theorem rowGuids (valid : Valid store) :
    (store.tables.queue.map SqlCommonDbOddJobMetaData.jobGuid).Nodup := by
  have same := congrArg (List.map Prod.snd) valid.keys
  simp only [List.map_map, Function.comp_def] at same
  exact same ▸ valid.distinct

theorem exists_insertion (valid : Valid store) (member : row ∈ store.tables.queue) :
    ∃ insertion ∈ store.insertions,
      insertion.insertedId = row.id ∧ insertion.jobData.jobId = row.jobGuid := by
  have listed : (row.id, row.jobGuid) ∈
      store.tables.queue.map fun row => (row.id, row.jobGuid) := List.mem_map_of_mem member
  rw [valid.keys] at listed
  obtain ⟨insertion, present, same⟩ := List.mem_map.mp listed
  exact ⟨insertion, present, congrArg Prod.fst same, congrArg Prod.snd same⟩

theorem exists_row (valid : Valid store) (member : insertion ∈ store.insertions) :
    ∃ row ∈ store.tables.queue,
      row.id = insertion.insertedId ∧ row.jobGuid = insertion.jobData.jobId := by
  have listed : (insertion.insertedId, insertion.jobData.jobId) ∈ store.insertions.map
      fun insertion => (insertion.insertedId, insertion.jobData.jobId) := List.mem_map_of_mem member
  rw [← valid.keys] at listed
  obtain ⟨row, present, same⟩ := List.mem_map.mp listed
  exact ⟨row, present, congrArg Prod.fst same, congrArg Prod.snd same⟩

theorem insertion_unique (valid : Valid store) (left : insertion ∈ store.insertions)
    (right : other ∈ store.insertions) (same : insertion.jobData.jobId = other.jobData.jobId) :
    insertion = other :=
  List.inj_on_of_nodup_map valid.distinct left right same

/-- The id and the guid of a row name the same insert. -/
theorem id_iff_guid (valid : Valid store) (member : insertion ∈ store.insertions)
    (present : row ∈ store.tables.queue) :
    row.id = insertion.insertedId ↔ row.jobGuid = insertion.jobData.jobId := by
  obtain ⟨own, known, id, guid⟩ := valid.exists_insertion present
  constructor
  · intro same
    obtain rfl : own = insertion :=
      List.inj_on_of_nodup_map valid.ids known member (id.trans same)
    exact guid.symm
  · intro same
    obtain rfl := valid.insertion_unique known member (guid.trans same)
    exact id.symm

/-- A row that is locked or out of `Inserting` belongs to a finished insert. -/
theorem published_of_row (valid : Valid store) (member : row ∈ store.tables.queue)
    (visible : row.status ≠ .inserting ∨ row.lockGuid ≠ none) :
    ∃ insertion ∈ store.insertions,
      insertion.jobData.jobId = row.jobGuid ∧ insertion.point = .published := by
  obtain ⟨insertion, known, _, guid⟩ := valid.exists_insertion member
  refine ⟨insertion, known, guid, ?_⟩
  by_contra unfinished
  obtain ⟨status, unlocked⟩ := (valid.hidden insertion known unfinished).2 row member guid.symm
  rcases visible with moved | locked
  · exact moved status
  · exact locked unlocked

/-- Statements that only rewrite rows keep the invariant where they leave ids, guids and
the rows of unfinished inserts alone. -/
theorem update (valid : Valid store) {selected : SqlCommonDbOddJobMetaData → Bool}
    {set : SqlCommonDbOddJobMetaData → SqlCommonDbOddJobMetaData}
    (key : ∀ row, ((set row).id, (set row).jobGuid) = (row.id, row.jobGuid))
    (unfinished : ∀ insertion ∈ store.insertions, insertion.point ≠ .published →
      ∀ row ∈ store.tables.queue, row.jobGuid = insertion.jobData.jobId → selected row = false) :
    Valid { store with tables :=
      { store.tables with queue := updateWhere selected set store.tables.queue } } := by
  refine { valid with keys := ?_, hidden := ?_ }
  · rw [map_updateWhere _ key]
    exact valid.keys
  · intro insertion known open_
    obtain ⟨unfetched, rows⟩ := valid.hidden insertion known open_
    refine ⟨unfetched, fun row member same => ?_⟩
    obtain ⟨old, present, rfl⟩ := mem_updateWhere.mp member
    have guid : old.jobGuid = insertion.jobData.jobId := by
      rw [← same]
      split
      · exact (congrArg Prod.snd (key old)).symm
      · rfl
    rw [unfinished insertion known open_ old present guid]
    exact rows old present guid

theorem claim (valid : Valid store) {call : Claim Key} {scan : List SqlCommonDbOddJobMetaData}
    (order : scan.Perm store.tables.queue) : Valid (store.claim call scan) := by
  refine valid.update (fun _ => rfl) fun insertion known unfinished row member guid => ?_
  rw [Bool.eq_false_iff]
  intro taken
  have eligible := call.eligible_of_takes order valid.rowIds member taken
  have status := ((valid.hidden insertion known unfinished).2 row member guid).1
  simp [Claim.eligible, Sql.eligible, status] at eligible

theorem mark (valid : Valid store) {mark : Mark} {jobId : Guid} {now : Ticks}
    (fetched : jobId ∈ store.fetched) : Valid (store.mark mark jobId now) := by
  rw [Store.mark, mark.apply_eq]
  apply valid.update (fun row => by simp)
  intro insertion known unfinished row member guid
  have unfetched := (valid.hidden insertion known unfinished).1
  rw [decide_eq_false_iff_not]
  intro same
  exact unfetched (guid ▸ same ▸ fetched)

theorem read (valid : Valid store) {lockGuid : Guid} {rows : List SqlQueueRowSet}
    (returned : Returns store.tables (fun q => q.lockGuid = some lockGuid) rows) :
    Valid (store.read rows) := by
  have published (row : SqlQueueRowSet) (member : row ∈ rows) : ∃ insertion ∈ store.insertions,
      insertion.jobData.jobId = row.metaData.jobGuid ∧ insertion.point = .published := by
    have selected := (mem_joinQuery.mp (returned.mem_iff.mp member)).1
    obtain ⟨present, locked⟩ := List.mem_filter.mp selected
    exact valid.published_of_row present (.inr (by simp [of_decide_eq_true locked]))
  refine { valid with hidden := ?_, fetched := ?_ }
  · intro insertion known unfinished
    obtain ⟨unfetched, hidden⟩ := valid.hidden insertion known unfinished
    refine ⟨fun listed => ?_, hidden⟩
    rcases List.mem_append.mp listed with older | newer
    · exact unfetched older
    · obtain ⟨row, member, same⟩ := List.mem_map.mp newer
      obtain ⟨other, present, guid, done⟩ := published row member
      obtain rfl := valid.insertion_unique known present (same.symm.trans guid.symm)
      exact unfinished done
  · intro jobId listed
    rcases List.mem_append.mp listed with older | newer
    · exact valid.fetched jobId older
    · obtain ⟨row, member, rfl⟩ := List.mem_map.mp newer
      obtain ⟨insertion, present, guid, _⟩ := published row member
      exact knows_iff.mpr ⟨insertion, present, guid⟩

theorem insert (valid : Valid store) {jobData : SerializableOddJob} {now : Ticks}
    (fresh : store.knows jobData.jobId = false) : Valid (store.insert jobData now) := by
  have unknown (insertion : Insertion) (member : insertion ∈ store.insertions) :
      insertion.jobData.jobId ≠ jobData.jobId := by
    intro same
    rw [knows_iff.mpr ⟨insertion, member, same⟩] at fresh
    cases fresh
  have cases {insertion : Insertion} (member : insertion ∈ (store.insert jobData now).insertions) :
      insertion ∈ store.insertions ∨ insertion = { jobData, insertedId := store.tables.nextId } := by
    simpa [Store.insert, Tables.insertMetaData] using member
  constructor
  · simp [Store.insert, Tables.insertMetaData, valid.keys, getMetaDataForJob]
  · have last : store.tables.nextId ∉ store.insertions.map Insertion.insertedId := by
      intro present
      obtain ⟨insertion, member, same⟩ := List.mem_map.mp present
      exact absurd same (Int.ne_of_lt (valid.bounded insertion member))
    simpa [Store.insert, Tables.insertMetaData, List.nodup_append, valid.ids] using last
  · intro insertion member
    rcases cases member with older | rfl
    · exact Int.lt_add_one_of_le (Int.le_of_lt (valid.bounded insertion older))
    · exact Int.lt_succ store.tables.nextId
  · simpa [Store.insert, Tables.insertMetaData, List.nodup_append, valid.distinct] using unknown
  · intro insertion member unfinished
    rcases cases member with older | rfl
    · obtain ⟨unfetched, hidden⟩ := valid.hidden insertion older unfinished
      refine ⟨unfetched, fun row present same => ?_⟩
      rcases List.mem_append.mp present with earlier | last
      · exact hidden row earlier same
      · obtain rfl := List.mem_singleton.mp last
        exact absurd same.symm (unknown insertion older)
    · refine ⟨fun listed => ?_, fun row present same => ?_⟩
      · obtain ⟨earlier, known, guid⟩ := knows_iff.mp (valid.fetched _ listed)
        exact unknown earlier known guid
      · rcases List.mem_append.mp present with earlier | last
        · obtain ⟨insertion, known, _, guid⟩ := valid.exists_insertion earlier
          exact absurd (guid.trans same) (unknown insertion known)
        · obtain rfl := List.mem_singleton.mp last
          exact ⟨rfl, rfl⟩
  · exact valid.params.begin unknown rfl
  · exact valid.generics.begin unknown rfl
  · intro jobId listed
    obtain ⟨insertion, member, same⟩ := knows_iff.mp (valid.fetched jobId listed)
    exact knows_iff.mpr ⟨insertion, List.mem_append_left _ member, same⟩

/-- An insert comes one statement further; what is left to check is what the statement did
to the tables. -/
theorem advance (valid : Valid store) {tables : Tables} {point : Point}
    (member : insertion ∈ store.insertions) (started : insertion.point ≠ .published)
    (nextId : tables.nextId = store.tables.nextId)
    (rows : tables.queue = store.tables.queue ∨ point = .published ∧
      tables.queue = (store.tables.publish insertion.insertedId).queue)
    (params : Copied (reach store.insertions insertion.jobData.jobId point) tables.params
      SqlCommonOddJobParamMetaData.jobGuid getParamDataForJob Point.hasParams)
    (generics : Copied (reach store.insertions insertion.jobData.jobId point) tables.generics
      SqlDbOddJobMethodGenericInfo.jobGuid getGenericDataForJob Point.hasGenerics) :
    Valid { store with
      tables
      insertions := reach store.insertions insertion.jobData.jobId point } := by
  have keys : tables.queue.map (fun row => (row.id, row.jobGuid)) =
      store.tables.queue.map fun row => (row.id, row.jobGuid) := by
    rcases rows with same | ⟨_, published⟩
    · rw [same]
    · rw [published]
      exact map_updateWhere _ (by intro _; rfl) _
  have both : (reach store.insertions insertion.jobData.jobId point).map
        (fun insertion => (insertion.insertedId, insertion.jobData.jobId)) =
      store.insertions.map fun insertion => (insertion.insertedId, insertion.jobData.jobId) :=
    map_updateWhere _ (by intro _; rfl) _
  have still (jobId : Guid) (known : store.knows jobId = true) :
      ∃ other ∈ reach store.insertions insertion.jobData.jobId point,
        other.jobData.jobId = jobId := by
    apply List.mem_map.mp
    rw [reach_ids]
    exact List.mem_map.mpr (knows_iff.mp known)
  constructor
  · rw [keys, both]
    exact valid.keys
  · rw [reach_insertedIds]
    exact valid.ids
  · intro other moved
    rw [nextId]
    rcases (mem_reach valid.distinct member).mp moved with rfl | ⟨known, _⟩
    · exact valid.bounded insertion member
    · exact valid.bounded other known
  · rw [reach_ids]
    exact valid.distinct
  · intro other moved unfinished
    -- a finished insert was unfinished before, and the rows of the others are not touched
    rcases (mem_reach valid.distinct member).mp moved with rfl | ⟨known, different⟩
    · obtain ⟨unfetched, hidden⟩ := valid.hidden insertion member started
      rcases rows with same | ⟨done, _⟩
      · exact ⟨unfetched, same ▸ hidden⟩
      · exact absurd done unfinished
    · obtain ⟨unfetched, hidden⟩ := valid.hidden other known unfinished
      refine ⟨unfetched, fun row present guid => ?_⟩
      rcases rows with same | ⟨_, published⟩
      · exact hidden row (same ▸ present) guid
      · rw [published] at present
        obtain ⟨old, older, rfl⟩ := mem_updateWhere.mp present
        have foreign : old.id ≠ insertion.insertedId := by
          intro same
          have own := (valid.id_iff_guid member older).mp same
          simp only [same, decide_true, ↓reduceIte] at guid
          exact different (guid.symm.trans own)
        simp only [foreign, decide_false, Bool.false_eq_true, ↓reduceIte] at guid ⊢
        exact hidden old older guid
  · exact params
  · exact generics
  · exact fun jobId listed => knows_iff.mpr (still jobId (valid.fetched jobId listed))

theorem proceed (valid : Valid store) (member : insertion ∈ store.insertions) :
    Valid (store.proceed insertion) := by
  have ownParams (param : SqlCommonOddJobParamMetaData)
      (listed : param ∈ getParamDataForJob insertion.jobData) :
      param.jobGuid = insertion.jobData.jobId := by
    obtain ⟨q, _, rfl⟩ := List.mem_map.mp listed
    rfl
  have ownGenerics (generic : SqlDbOddJobMethodGenericInfo)
      (listed : generic ∈ getGenericDataForJob insertion.jobData) :
      generic.jobGuid = insertion.jobData.jobId := by
    obtain ⟨q, _, rfl⟩ := List.mem_map.mp listed
    rfl
  unfold Store.proceed
  cases here : insertion.point with
  | inserted =>
    refine valid.advance member (by simp [here]) (by simp) (.inl (by simp)) ?_ ?_
    · rw [Tables.copyParams_params]
      exact valid.params.copy valid.distinct member (by simp [here, Point.hasParams]) rfl ownParams
    · rw [Tables.copyParams_generics]
      exact valid.generics.keep valid.distinct member (by simp [here, Point.hasGenerics])
  | paramsCopied =>
    refine valid.advance member (by simp [here]) (by simp) (.inl (by simp)) ?_ ?_
    · rw [Tables.copyGenerics_params]
      exact valid.params.keep valid.distinct member (by simp [here, Point.hasParams])
    · rw [Tables.copyGenerics_generics]
      exact valid.generics.copy valid.distinct member (by simp [here, Point.hasGenerics]) rfl
        ownGenerics
  | genericsCopied =>
    refine valid.advance member (by simp [here]) rfl (.inr ⟨rfl, rfl⟩) ?_ ?_
    · exact valid.params.keep valid.distinct member (by simp [here, Point.hasParams])
    · exact valid.generics.keep valid.distinct member (by simp [here, Point.hasGenerics])
  | published => exact valid

theorem step (valid : Valid store) {action : Action Key} {after : Store}
    (taken : store.step action = some after) : Valid after := by
  cases action with
  | insert jobData now =>
    simp only [Store.step] at taken
    split at taken
    · cases taken
    · rename_i fresh
      cases taken
      exact valid.insert (Bool.not_eq_true _ ▸ fresh)
  | proceed jobId =>
    obtain ⟨insertion, found, rfl⟩ := Option.map_eq_some_iff.mp taken
    exact valid.proceed (List.mem_of_find?_eq_some found)
  | claim call scan =>
    simp only [Store.step] at taken
    split at taken
    · cases taken
      exact valid.claim ‹_›
    · cases taken
  | read lockGuid rows =>
    simp only [Store.step] at taken
    split at taken
    · cases taken
      exact valid.read ‹_›
    · cases taken
  | mark mark jobId now =>
    simp only [Store.step] at taken
    split at taken
    · cases taken
      exact valid.mark ‹_›
    · cases taken

end Valid

theorem valid_of_reaches {allowed : Store → Action Key → Prop} {store : Store}
    (reached : Reaches Store.step allowed {} store) : Valid store :=
  reached.invariant valid_empty fun _ _ _ valid _ taken => valid.step taken

/-- The rows of a finished insert are all there. -/
theorem Valid.stored {store : Store} {insertion : Insertion} (valid : Valid store)
    (member : insertion ∈ store.insertions) (published : insertion.point = .published) :
    Stored store.tables insertion.jobData := by
  constructor
  · intro param
    simpa [published, Point.hasParams] using valid.params.exact insertion member param
  · intro generic
    simpa [published, Point.hasGenerics] using valid.generics.exact insertion member generic

/-- Every job a fetch returns was added to its last statement, and is decoded from a wire
form with the arguments and generic types it was added with. -/
theorem fetched_jobs_are_whole {store : Store} {lockGuid : Guid} {rows : List SqlQueueRowSet}
    {decoder : Decoder CliType Value} {jobs : List (SqlDbOddJob CliType Value)}
    (reached : Reaches (@Store.step Key _) anyAction {} store)
    (returned : Returns store.tables (fun q => q.lockGuid = some lockGuid) rows)
    (fetched : toList (executeJoinQuery decoder rows) = .ok jobs) :
    ∀ job ∈ jobs, ∃ insertion ∈ store.insertions, ∃ wire : SerializableOddJob,
      insertion.point = .published ∧ insertion.jobData.jobId = job.jobId ∧
      decoder.decode wire = .ok job ∧
      Carries insertion.jobData wire.jobArgs wire.methodGenericTypes ∧
      ((insertion.jobData.jobArgs.map OddJobSerializedParameter.ordinal).Nodup →
        (∀ arg ∈ insertion.jobData.jobArgs, arg.typeName.isSome = true) →
        (∀ type ∈ insertion.jobData.methodGenericTypes, type.isSome = true) →
        wire.jobArgs = orderBy OddJobSerializedParameter.ordinal insertion.jobData.jobArgs ∧
        wire.methodGenericTypes = insertion.jobData.methodGenericTypes) := by
  intro job member
  have valid := valid_of_reaches reached
  obtain ⟨row, present, locked, first, group, whole, rfl, decoded⟩ :=
    exists_group_of_mem valid.rowGuids returned (mem_toList fetched member)
  obtain ⟨insertion, known, guid, published⟩ :=
    valid.published_of_row present (.inr (by simp [of_decide_eq_true locked]))
  have carries := (valid.stored known published).carries whole guid.symm
  rw [decoder.ofGroup_eq_decode] at decoded
  refine ⟨insertion, known, _, published, ?_, decoded, carries, fun distinct typed named => ?_⟩
  · obtain ⟨_, _, _, _, _, _, rfl⟩ := decoder.decode_eq_ok_iff.mp decoded
    exact guid
  · exact ⟨carries.exact distinct typed, carries.generics.trans (List.filter_eq_self.mpr named)⟩

def sampleArg (ordinal : Int) (value : String) : OddJobSerializedParameter :=
  ⟨ordinal, some "count", some value, some "System.Int64, %coretarget%"⟩

def sampleJobData (jobArgs : List OddJobSerializedParameter) : SerializableOddJob where
  jobId := 7
  jobArgs
  typeExecutedOn := "Jobs.SampleJob, Jobs"
  methodName := "Add"
  status := .new
  methodGenericTypes := [some "Jobs.SampleJob, Jobs"]
  retryParameters := none
  executionTime := none
  queueName := "default"

def sampleClaim : Claim Int where
  queueNames := ["default"]
  fetchSize := 5
  orderPredicate q := q.jobId
  lockGuid := 40
  lockTime := 100
  jobClaimLockTimeoutInSeconds := defaultJobClaimLockTimeoutInSeconds

def sampleDecoder : Decoder String String where
  getTypeForJob name := .ok name
  deserializeObject text _ := .ok text
  coreFullName := "mscorlib, Version=4.0.0.0".toList

def sampleInsert (jobData : SerializableOddJob) : List (Action Int) :=
  [.insert jobData 0, .proceed 7, .proceed 7, .proceed 7,
    .claim sampleClaim [publishedRow jobData 1 0]]

def sampleStore (jobData : SerializableOddJob) : Store :=
  (execute (fun _ _ => true) step {} (sampleInsert jobData)).getD {}

def sampleFetch (jobData : SerializableOddJob) :
    Except ClrException (List (SqlDbOddJob String String)) :=
  toList (executeJoinQuery sampleDecoder (joinQuery
    ((sampleStore jobData).tables.queue.filter fun q => q.lockGuid = some 40)
    (sampleStore jobData).tables))

theorem fetched_jobs_are_whole_of_two :
    (∃ job, sampleFetch (sampleJobData [sampleArg 1 "6", sampleArg 0 "5"]) = .ok [job] ∧
      job.jobArgs.map OddJobParameter.value = [some "5", some "6"]) ∧
    ∃ wire : SerializableOddJob, wire.jobArgs = [sampleArg 0 "5", sampleArg 1 "6"] ∧
      (sampleDecoder.decode wire).map (fun job => [job]) =
        sampleFetch (sampleJobData [sampleArg 1 "6", sampleArg 0 "5"]) := by
  have done : sampleFetch (sampleJobData [sampleArg 1 "6", sampleArg 0 "5"]) = .ok [_] := rfl
  refine ⟨⟨_, done, rfl⟩, ?_⟩
  have run : execute (fun _ _ => true) step {}
      (sampleInsert (sampleJobData [sampleArg 1 "6", sampleArg 0 "5"])) =
    some (sampleStore (sampleJobData [sampleArg 1 "6", sampleArg 0 "5"])) := rfl
  have reached : Reaches (@step Int _) anyAction {} _ :=
    reaches_of_execute (fun _ _ _ => trivial) run
  obtain ⟨insertion, known, wire, _, _, decoded, _, exact⟩ :=
    fetched_jobs_are_whole reached (List.Perm.refl _) done _ List.mem_cons_self
  obtain rfl : insertion = ⟨sampleJobData [sampleArg 1 "6", sampleArg 0 "5"], 1, .published⟩ :=
    List.mem_singleton.mp known
  refine ⟨wire, ?_, by rw [decoded, done]; rfl⟩
  exact (exact (by decide) (by decide) (by decide)).1

/-- Of two parameters with one ordinal only the first comes back. -/
theorem fetched_job_loses_parameter :
    Reaches (@step Int _) anyAction {}
      (sampleStore (sampleJobData [sampleArg 0 "5", sampleArg 0 "6"])) ∧
    ∃ job, sampleFetch (sampleJobData [sampleArg 0 "5", sampleArg 0 "6"]) = .ok [job] ∧
      job.jobArgs.map OddJobParameter.value = [some "5"] ∧
      (sampleJobData [sampleArg 0 "5", sampleArg 0 "6"]).jobArgs.map
        OddJobSerializedParameter.value = [some "5", some "6"] := by
  have run : execute (fun _ _ => true) step {}
      (sampleInsert (sampleJobData [sampleArg 0 "5", sampleArg 0 "6"])) =
    some (sampleStore (sampleJobData [sampleArg 0 "5", sampleArg 0 "6"])) := rfl
  refine ⟨reaches_of_execute (fun _ _ _ => trivial) run, ?_⟩
  have done : sampleFetch (sampleJobData [sampleArg 0 "5", sampleArg 0 "6"]) = .ok [_] := rfl
  exact ⟨_, done, rfl, rfl⟩

end Store

end OddJob.Sql
