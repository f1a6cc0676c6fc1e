import Mathlib.Data.List.Sort
import Mathlib.Order.Defs.LinearOrder

/-! The query operators that a LINQ pipeline composes over in-memory rows:
stable ordering, grouping in order of first occurrence, and outer joins whose
unmatched side is a fixed row. -/

namespace Linq

variable {Row Right Key : Type}

section Distinct

variable [DecidableEq Key]

/-- Keep the first occurrence of every value. -/
def distinct : List Key → List Key
  | [] => []
  | key :: rest => key :: (distinct rest).filter (· ≠ key)

@[simp] theorem mem_distinct {key : Key} {keys : List Key} : key ∈ distinct keys ↔ key ∈ keys := by
  induction keys with
  | nil => simp [distinct]
  | cons head rest ih =>
    by_cases same : key = head <;> simp [distinct, ih, same]

theorem distinct_nodup (keys : List Key) : (distinct keys).Nodup := by
  induction keys with
  | nil => exact List.nodup_nil
  | cons head rest ih => exact List.nodup_cons.mpr ⟨by simp, ih.filter _⟩

theorem distinct_sublist (keys : List Key) : (distinct keys).Sublist keys := by
  induction keys with
  | nil => exact List.Sublist.refl _
  | cons head rest ih => exact (List.filter_sublist.trans ih).cons_cons head

theorem distinct_of_constant {key : Key} {keys : List Key}
    (same : ∀ other ∈ keys, other = key) (present : keys ≠ []) :
    distinct keys = [key] := by
  cases keys with
  | nil => exact absurd rfl present
  | cons head rest =>
    obtain rfl := same head (by simp)
    have removed : (distinct rest).filter (· ≠ head) = [] := by
      apply List.filter_eq_nil_iff.mpr
      intro other member
      simpa using same other (List.mem_cons_of_mem _ (mem_distinct.mp member))
    simp only [distinct, removed]

/-- Groups in order of the first occurrence of their key, rows in their own order. -/
def groupBy (key : Row → Key) (rows : List Row) : List (Key × List Row) :=
  (distinct (rows.map key)).map fun value => (value, rows.filter fun row => key row = value)

theorem mem_groupBy {key : Row → Key} {rows : List Row} {group : Key × List Row} :
    group ∈ groupBy key rows ↔
      (∃ row ∈ rows, key row = group.1) ∧ group.2 = rows.filter fun row => key row = group.1 := by
  obtain ⟨value, members⟩ := group
  simp only [groupBy, List.mem_map, mem_distinct, Prod.mk.injEq]
  constructor
  · rintro ⟨other, found, rfl, rfl⟩
    exact ⟨found, rfl⟩
  · rintro ⟨found, same⟩
    exact ⟨value, found, rfl, same.symm⟩

theorem groupBy_keys (key : Row → Key) (rows : List Row) :
    (groupBy key rows).map Prod.fst = distinct (rows.map key) := by
  simp [groupBy, Function.comp_def]

theorem groupBy_of_constant {key : Row → Key} {rows : List Row} {value : Key}
    (same : ∀ row ∈ rows, key row = value)
    (present : rows ≠ []) : groupBy key rows = [(value, rows)] := by
  have keys : distinct (rows.map key) = [value] := by
    apply distinct_of_constant
    · simpa using same
    · simpa using present
  have all : rows.filter (fun row => key row = value) = rows := by
    simpa using same
  simp [groupBy, keys, all]

/-- The first row of every group. -/
def firsts (key : Row → Key) (rows : List Row) : List Row :=
  (groupBy key rows).filterMap fun group => group.2.head?

theorem mem_of_mem_firsts {key : Row → Key} {rows : List Row} {row : Row}
    (member : row ∈ firsts key rows) : row ∈ rows := by
  obtain ⟨group, grouped, first⟩ := List.mem_filterMap.mp member
  have inGroup := List.mem_of_mem_head? first
  rw [(mem_groupBy.mp grouped).2] at inGroup
  exact (List.mem_filter.mp inGroup).1

private theorem head?_filter_key {key : Row → Key} {rows : List Row} {value : Key}
    (member : value ∈ rows.map key) :
    ∃ row, (rows.filter fun row => key row = value).head? = some row ∧ key row = value := by
  obtain ⟨row, present, same⟩ := List.mem_map.mp member
  cases found : (rows.filter fun row => key row = value) with
  | nil =>
    have absent := List.filter_eq_nil_iff.mp found row present
    simp [same] at absent
  | cons first rest =>
    have kept : first ∈ rows.filter fun row => key row = value := by simp [found]
    exact ⟨first, rfl, by simpa using (List.mem_filter.mp kept).2⟩

theorem firsts_keys (key : Row → Key) (rows : List Row) :
    (firsts key rows).map key = distinct (rows.map key) := by
  have walk : ∀ values : List Key, (∀ value ∈ values, value ∈ rows.map key) →
      ((values.map fun value => (value, rows.filter fun row => key row = value)).filterMap
        fun group => group.2.head?).map key = values := by
    intro values known
    induction values with
    | nil => rfl
    | cons value rest ih =>
      obtain ⟨row, first, same⟩ := head?_filter_key (known value (by simp))
      have later := ih fun other member => known other (List.mem_cons_of_mem _ member)
      simp only [List.map_cons, List.filterMap_cons, first, same, later]
  exact walk _ fun value member => mem_distinct.mp member

theorem exists_first {key : Row → Key} {rows : List Row} {row : Row} (member : row ∈ rows) :
    ∃ first ∈ firsts key rows, key first = key row := by
  have kept : key row ∈ (firsts key rows).map key := by
    rw [firsts_keys]
    exact mem_distinct.mpr (List.mem_map_of_mem member)
  exact List.mem_map.mp kept

end Distinct

section Ordering

variable [LinearOrder Key]

/-- Stable ascending order by a key. -/
def orderBy (key : Row → Key) (rows : List Row) : List Row :=
  rows.insertionSort fun first second => key first ≤ key second

theorem orderBy_perm (key : Row → Key) (rows : List Row) : (orderBy key rows).Perm rows :=
  List.perm_insertionSort _ rows

@[simp] theorem mem_orderBy {key : Row → Key} {rows : List Row} {row : Row} :
    row ∈ orderBy key rows ↔ row ∈ rows :=
  (orderBy_perm key rows).mem_iff

theorem orderBy_sorted (key : Row → Key) (rows : List Row) :
    (orderBy key rows).Pairwise fun first second => key first ≤ key second := by
  have : Std.Total (fun first second : Row => key first ≤ key second) :=
    ⟨fun first second => le_total _ _⟩
  have : IsTrans Row (fun first second => key first ≤ key second) :=
    ⟨fun _ _ _ => le_trans⟩
  exact List.pairwise_insertionSort _ rows

/-- One row for each key of a sorted list is strictly increasing. -/
theorem firsts_increasing {key : Row → Key} {rows : List Row}
    (sorted : rows.Pairwise fun first second => key first ≤ key second) :
    (firsts key rows).Pairwise fun first second => key first < key second := by
  have keysSorted : (distinct (rows.map key)).Pairwise (· ≤ ·) :=
    (List.pairwise_map.mpr sorted).sublist (distinct_sublist _)
  have keysStrict : (distinct (rows.map key)).Pairwise (· < ·) := by
    apply (keysSorted.and (distinct_nodup _)).imp
    rintro first second ⟨ordered, different⟩
    exact lt_of_le_of_ne ordered different
  rw [← firsts_keys] at keysStrict
  exact List.pairwise_map.mp keysStrict

theorem increasing_unique {key : Row → Key} {left right : List Row}
    (leftIncreasing : left.Pairwise fun first second => key first < key second)
    (rightIncreasing : right.Pairwise fun first second => key first < key second)
    (same : ∀ row, row ∈ left ↔ row ∈ right) : left = right := by
  have distinctRows {rows : List Row}
      (increasing : rows.Pairwise fun first second => key first < key second) : rows.Nodup :=
    increasing.imp fun below equal => absurd (congrArg key equal) (ne_of_lt below)
  have permuted : left.Perm right :=
    (List.perm_ext_iff_of_nodup (distinctRows leftIncreasing) (distinctRows rightIncreasing)).mpr same
  refine List.Perm.eq_of_pairwise ?_ leftIncreasing rightIncreasing permuted
  intro first second _ _ below above
  exact absurd (lt_trans below above) (lt_irrefl _)

/-- Ordering and deduplicating by a key recovers the increasing list with the
same rows, however often and in whatever order the rows occur. -/
theorem firsts_eq_of_increasing {key : Row → Key} {rows expected : List Row}
    (sorted : rows.Pairwise fun first second => key first ≤ key second)
    (increasing : expected.Pairwise fun first second => key first < key second)
    (same : ∀ row, row ∈ rows ↔ row ∈ expected) : firsts key rows = expected := by
  apply increasing_unique (firsts_increasing sorted) increasing
  intro row
  constructor
  · exact fun member => (same row).mp (mem_of_mem_firsts member)
  · intro member
    obtain ⟨first, kept, key_eq⟩ : ∃ first ∈ firsts key rows, key first = key row :=
      exists_first ((same row).mpr member)
    have present := (same first).mp (mem_of_mem_firsts kept)
    have keys : (expected.map key).Nodup :=
      List.pairwise_map.mpr (increasing.imp fun below => ne_of_lt below)
    -- keys are distinct in an increasing list, so the representative is the row
    exact List.inj_on_of_nodup_map keys present member key_eq ▸ kept

end Ordering

section Joins

/-- `LeftJoin` whose unmatched rows are paired with one fixed row. -/
def leftJoin (matched : Row → Right → Bool) (unmatched : Right)
    (left : List Row) (right : List Right) : List (Row × Right) :=
  left.flatMap fun row =>
    match right.filter (matched row) with
    | [] => [(row, unmatched)]
    | found => found.map fun partner => (row, partner)

theorem mem_leftJoin {matched : Row → Right → Bool} {unmatched : Right}
    {left : List Row} {right : List Right} {pair : Row × Right} :
    pair ∈ leftJoin matched unmatched left right ↔
      pair.1 ∈ left ∧ ((pair.2 ∈ right ∧ matched pair.1 pair.2 = true) ∨
        ((∀ partner ∈ right, matched pair.1 partner = false) ∧ pair.2 = unmatched)) := by
  obtain ⟨row, partner⟩ := pair
  simp only [leftJoin, List.mem_flatMap]
  constructor
  · rintro ⟨other, member, found⟩
    split at found
    · rename_i none
      simp only [List.mem_singleton, Prod.mk.injEq] at found
      obtain ⟨rfl, rfl⟩ := found
      refine ⟨member, .inr ⟨?_, rfl⟩⟩
      intro candidate present
      simpa using List.filter_eq_nil_iff.mp none candidate present
    · obtain ⟨candidate, present, same⟩ := List.mem_map.mp found
      simp only [Prod.mk.injEq] at same
      obtain ⟨rfl, rfl⟩ := same
      exact ⟨member, .inl (List.mem_filter.mp present)⟩
  · rintro ⟨member, ⟨present, accepted⟩ | ⟨none, rfl⟩⟩
    · refine ⟨row, member, ?_⟩
      have kept : partner ∈ right.filter (matched row) := List.mem_filter.mpr ⟨present, accepted⟩
      split
      · rename_i empty
        simp [empty] at kept
      · exact List.mem_map.mpr ⟨partner, kept, rfl⟩
    · refine ⟨row, member, ?_⟩
      have empty : right.filter (matched row) = [] := by
        apply List.filter_eq_nil_iff.mpr
        intro candidate present
        simp [none candidate present]
      simp [empty]

theorem exists_mem_leftJoin (matched : Row → Right → Bool) (unmatched : Right)
    (right : List Right) {left : List Row} {row : Row} (member : row ∈ left) :
    ∃ partner, (row, partner) ∈ leftJoin matched unmatched left right := by
  by_cases found : ∃ partner ∈ right, matched row partner = true
  · obtain ⟨partner, present, accepted⟩ := found
    exact ⟨partner, mem_leftJoin.mpr ⟨member, .inl ⟨present, accepted⟩⟩⟩
  · refine ⟨unmatched, mem_leftJoin.mpr ⟨member, .inr ⟨?_, rfl⟩⟩⟩
    intro partner present
    exact Bool.eq_false_iff.mpr fun accepted => found ⟨partner, present, accepted⟩

end Joins

/-- Two tables with the same keys that agree on a column wherever they agree on the key. -/
theorem map_perm_of_keys {Other Column : Type} {key : Row → Key} {otherKey : Other → Key}
    {rows : List Row} {others : List Other} {column : Row → Column} {otherColumn : Other → Column}
    (keys : (rows.map key).Perm (others.map otherKey)) (distinct : (others.map otherKey).Nodup)
    (same : ∀ row ∈ rows, ∃ other ∈ others, otherKey other = key row ∧
      otherColumn other = column row) :
    (rows.map column).Perm (others.map otherColumn) := by
  have left : (rows.map fun row => (key row, column row)).Nodup := by
    apply List.Nodup.of_map Prod.fst
    rw [List.map_map]
    exact keys.nodup_iff.mpr distinct
  have right : (others.map fun other => (otherKey other, otherColumn other)).Nodup := by
    apply List.Nodup.of_map Prod.fst
    rwa [List.map_map]
  have paired : (rows.map fun row => (key row, column row)).Perm
      (others.map fun other => (otherKey other, otherColumn other)) := by
    refine (List.perm_ext_iff_of_nodup left right).mpr fun pair => ?_
    simp only [List.mem_map]
    constructor
    · rintro ⟨row, member, rfl⟩
      obtain ⟨other, present, own, equal⟩ := same row member
      exact ⟨other, present, Prod.ext own equal⟩
    · rintro ⟨other, present, rfl⟩
      obtain ⟨row, member, own⟩ :=
        List.mem_map.mp (keys.mem_iff.mpr (List.mem_map_of_mem present))
      obtain ⟨partner, listed, shared, equal⟩ := same row member
      obtain rfl : partner = other :=
        List.inj_on_of_nodup_map distinct listed present (shared.trans own)
      exact ⟨row, member, Prod.ext own equal.symm⟩
  have columns := paired.map Prod.snd
  rwa [List.map_map, List.map_map] at columns

section Statements

/-- `UPDATE .. SET .. WHERE ..`: rewrite the selected rows in place. -/
def updateWhere (selected : Row → Bool) (set : Row → Row) (rows : List Row) : List Row :=
  rows.map fun row => if selected row then set row else row

theorem mem_updateWhere {selected : Row → Bool} {set : Row → Row} {rows : List Row} {row : Row} :
    row ∈ updateWhere selected set rows ↔
      ∃ old ∈ rows, row = if selected old then set old else old := by
  simp only [updateWhere, List.mem_map, eq_comm]

theorem updateWhere_of_none {selected : Row → Bool} {set : Row → Row} {rows : List Row}
    (none : rows.any selected = false) : updateWhere selected set rows = rows := by
  refine (List.map_congr_left fun row member => ?_).trans rows.map_id
  simp [List.any_eq_false.mp none row member]

theorem map_updateWhere {Column : Type} {selected : Row → Bool} {set : Row → Row}
    (column : Row → Column) (untouched : ∀ row, column (set row) = column row)
    (rows : List Row) : (updateWhere selected set rows).map column = rows.map column := by
  simp only [updateWhere, List.map_map]
  apply List.map_congr_left
  intro row _
  by_cases chosen : selected row = true <;> simp [chosen, untouched]

end Statements

end Linq
