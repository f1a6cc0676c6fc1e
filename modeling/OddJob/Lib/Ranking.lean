import OddJob.Lib.Linq
import Mathlib.Data.List.Perm.Subperm
import Mathlib.Data.Prod.Lex
import Mathlib.Tactic.Push

/-! The first rows of an ordered query: how many they are, and which of the rows
can be among them when rows with equal keys are scanned in any order. -/

namespace Linq

variable {Row Other Key : Type} [LinearOrder Key]

/-- As many of the rows as the limit allows, and no other row comes before one of them. -/
structure First (key : Row → Key) (limit : Nat) (rows chosen : List Row) : Prop where
  included : chosen.Subperm rows
  count : chosen.length = min limit rows.length
  ahead : ∀ row ∈ rows, row ∉ chosen → ∀ first ∈ chosen, key first ≤ key row

theorem First.congr {key : Row → Key} {limit : Nat} {rows rows' chosen chosen' : List Row}
    (first : First key limit rows chosen) (sameRows : rows.Perm rows')
    (sameChosen : chosen.Perm chosen') : First key limit rows' chosen' where
  included := (sameChosen.symm.subperm.trans first.included).trans sameRows.subperm
  count := by rw [← sameChosen.length_eq, ← sameRows.length_eq, first.count]
  ahead row member left other chosen :=
    first.ahead row (sameRows.mem_iff.mpr member) (fun taken => left (sameChosen.mem_iff.mp taken))
      other (sameChosen.mem_iff.mpr chosen)

/-- As many rows as the limit allows are chosen where one of them is left. -/
theorem First.length_eq_limit {key : Row → Key} {limit : Nat} {rows chosen : List Row} {row : Row}
    (first : First key limit rows chosen) (member : row ∈ rows) (left : row ∉ chosen) :
    chosen.length = limit := by
  have fewer : chosen.length < rows.length := by
    by_contra all
    exact left ((first.included.perm_of_length_le (not_lt.mp all)).mem_iff.mpr member)
  have count := first.count
  omega

/-- `OrderBy(key).Take(limit)` -/
theorem first_take (key : Row → Key) (limit : Nat) (rows : List Row) :
    First key limit rows ((orderBy key rows).take limit) := by
  have all : ((orderBy key rows).take limit ++ (orderBy key rows).drop limit).Perm rows := by
    rw [List.take_append_drop]
    exact orderBy_perm key rows
  constructor
  · exact (List.sublist_append_left _ _).subperm.trans all.subperm
  · rw [List.length_take, (orderBy_perm key rows).length_eq]
  · intro row member left first chosen
    have dropped : row ∈ (orderBy key rows).drop limit :=
      (List.mem_append.mp (all.mem_iff.mpr member)).resolve_left left
    have sorted := orderBy_sorted key rows
    rw [← List.take_append_drop limit (orderBy key rows)] at sorted
    exact (List.pairwise_append.mp sorted).2.2 first chosen row dropped

/-- The first of the selected values are selected from the first rows. -/
theorem First.map {key : Other → Key} {select : Row → Other} {limit : Nat} {rows chosen : List Row}
    (first : First (fun row => key (select row)) limit rows chosen) :
    First key limit (rows.map select) (chosen.map select) where
  included := by
    obtain ⟨kept, permuted, sublist⟩ := first.included
    exact ⟨kept.map select, permuted.map select, sublist.map select⟩
  count := by rw [List.length_map, List.length_map, first.count]
  ahead value member left other taken := by
    obtain ⟨row, present, rfl⟩ := List.mem_map.mp member
    obtain ⟨chosenRow, chosen, rfl⟩ := List.mem_map.mp taken
    exact first.ahead row present (fun same => left (List.mem_map_of_mem same)) chosenRow chosen

/-- Without ties the first rows are the same however they are found. -/
theorem First.unique {key : Row → Key} {limit : Nat} {rows chosen chosen' : List Row}
    (first : First key limit rows chosen) (first' : First key limit rows chosen')
    (distinct : rows.Nodup)
    (untied : ∀ row ∈ rows, ∀ other ∈ rows, key row = key other → row = other) :
    chosen.Perm chosen' := by
  have nodup {some : List Row} (included : some.Subperm rows) : some.Nodup := by
    obtain ⟨kept, permuted, sublist⟩ := included
    exact permuted.nodup_iff.mp (distinct.sublist sublist)
  have subset {one two : List Row} (one_first : First key limit rows one)
      (two_first : First key limit rows two) : one ⊆ two := by
    intro row taken
    by_contra left
    -- as many were chosen, so another row took the place of this one
    obtain ⟨other, taken', left'⟩ : ∃ other ∈ two, other ∉ one := by
      by_contra none
      push Not at none
      have whole := (nodup two_first.included).subperm none
      have even : one.length = two.length := one_first.count.trans two_first.count.symm
      exact left ((whole.perm_of_length_le even.le).mem_iff.mpr taken)
    have present := one_first.included.subset taken
    have present' := two_first.included.subset taken'
    have same := le_antisymm (one_first.ahead other present' left' row taken)
      (two_first.ahead row present left other taken')
    exact left (untied row present other present' same ▸ taken')
  rw [List.perm_ext_iff_of_nodup (nodup first.included) (nodup first'.included)]
  intro row
  exact ⟨fun taken => subset first first' taken, fun taken => subset first' first taken⟩

private theorem orderedInsert_place {place : Row → Nat} (key : Row → Key) (row : Row)
    {rows : List Row} (later : ∀ other ∈ rows, place row < place other) :
    rows.orderedInsert (fun left right => key left ≤ key right) row =
      rows.orderedInsert (fun left right =>
        toLex (key left, place left) ≤ toLex (key right, place right)) row := by
  induction rows with
  | nil => rfl
  | cons head rest ih =>
    have next := later head List.mem_cons_self
    have same : toLex (key row, place row) ≤ toLex (key head, place head) ↔
        key row ≤ key head := by
      rw [Prod.Lex.le_iff]
      simp only [ofLex_toLex, next.le, and_true, ← le_iff_lt_or_eq]
    rw [List.orderedInsert_cons, List.orderedInsert_cons,
      ih fun other member => later other (List.mem_cons_of_mem head member)]
    simp only [same]

/-- A stable order lets rows with equal keys stand as they were. -/
theorem orderBy_place {place : Row → Nat} (key : Row → Key) {rows : List Row}
    (increasing : rows.Pairwise fun row other => place row < place other) :
    orderBy key rows = orderBy (fun row => toLex (key row, place row)) rows := by
  induction rows with
  | nil => rfl
  | cons row rest ih =>
    obtain ⟨later, more⟩ := List.pairwise_cons.mp increasing
    have behind : ∀ other ∈ orderBy key rest, place row < place other :=
      fun other member => later other (mem_orderBy.mp member)
    have insert := orderedInsert_place key row behind
    calc orderBy key (row :: rest)
        = (orderBy key rest).orderedInsert (fun left right => key left ≤ key right) row := rfl
      _ = (orderBy key rest).orderedInsert (fun left right =>
            toLex (key left, place left) ≤ toLex (key right, place right)) row := insert
      _ = orderBy (fun row => toLex (key row, place row)) (row :: rest) := by
          rw [ih more]
          rfl

theorem orderBy_map (key : Other → Key) (select : Row → Other) (rows : List Row) :
    orderBy key (rows.map select) = (orderBy (fun row => key (select row)) rows).map select :=
  (List.map_insertionSort _ _ select rows fun _ _ _ _ => Iff.rfl).symm

private theorem orderedInsert_sorted (key : Row → Key) (row : Row) {rows : List Row}
    (sorted : rows.Pairwise fun first second => key first ≤ key second) :
    rows.orderedInsert (fun first second => key first ≤ key second) row =
      rows.filter (fun other => key other < key row) ++
        row :: rows.filter fun other => key row ≤ key other := by
  induction rows with
  | nil => rfl
  | cons head rest ih =>
    obtain ⟨least, later⟩ := List.pairwise_cons.mp sorted
    by_cases first : key row ≤ key head
    · have all : ∀ other ∈ head :: rest, key row ≤ key other := by
        intro other member
        rcases List.mem_cons.mp member with rfl | more
        · exact first
        · exact first.trans (least other more)
      have none : (head :: rest).filter (fun other => key other < key row) = [] :=
        List.filter_eq_nil_iff.mpr fun other member => by simpa using all other member
      have every : (head :: rest).filter (fun other => key row ≤ key other) = head :: rest :=
        List.filter_eq_self.mpr fun other member => by simpa using all other member
      rw [none, every, List.orderedInsert_cons, if_pos first]
      rfl
    · rw [List.orderedInsert_cons, if_neg first, ih later]
      simp [not_le.mp first, first]

private theorem orderBy_cons (key : Row → Key) (row : Row) (rows : List Row) :
    orderBy key (row :: rows) = (orderBy key rows).filter (fun other => key other < key row) ++
      row :: (orderBy key rows).filter fun other => key row ≤ key other :=
  orderedInsert_sorted key row (orderBy_sorted key rows)

/-- A stable order puts a row behind the rows with smaller keys and behind those rows with
its own key that were scanned before it. -/
theorem orderBy_split (key : Row → Key) (before after : List Row) (row : Row) :
    ∃ front back, orderBy key (before ++ row :: after) = front ++ row :: back ∧
      front.Perm ((before.filter fun other => key other ≤ key row) ++
        after.filter fun other => key other < key row) := by
  induction before with
  | nil =>
    exact ⟨_, _, orderBy_cons key row after, (orderBy_perm key after).filter _⟩
  | cons head rest ih =>
    obtain ⟨front, back, split, counted⟩ := ih
    have sorted := orderBy_sorted key (rest ++ row :: after)
    have inserted := orderBy_cons key head (rest ++ row :: after)
    rw [split] at sorted inserted
    obtain ⟨_, tail, lower⟩ := List.pairwise_append.mp sorted
    have above := (List.pairwise_cons.mp tail).1
    by_cases first : key head ≤ key row
    · -- the new row lands in front of `row`, and nothing behind `row` overtakes it
      have stays : back.filter (fun other => key other < key head) = [] := by
        apply List.filter_eq_nil_iff.mpr
        intro other member
        simpa using first.trans (above other member)
      refine ⟨front.filter (fun other => key other < key head) ++
        head :: front.filter (fun other => key head ≤ key other),
        back.filter fun other => key head ≤ key other, ?_, ?_⟩
      · simp [List.cons_append, inserted, first, stays]
      · have whole : (front.filter (fun other => key other < key head) ++
            front.filter fun other => key head ≤ key other).Perm front := by
          have others : (fun other => decide (key head ≤ key other)) =
              fun other => !decide (key other < key head) := by
            funext other
            simp [← not_lt]
          rw [others]
          exact List.filter_append_perm _ front
        rw [List.filter_cons_of_pos (by simpa using first)]
        exact (List.perm_middle.trans (whole.cons head)).trans (counted.cons head)
    · have below : key row < key head := not_le.mp first
      have kept : front.filter (fun other => key other < key head) = front := by
        apply List.filter_eq_self.mpr
        intro other member
        simpa using (lower other member row List.mem_cons_self).trans_lt below
      have gone : front.filter (fun other => key head ≤ key other) = [] := by
        apply List.filter_eq_nil_iff.mpr
        intro other member
        simpa using (lower other member row List.mem_cons_self).trans_lt below
      refine ⟨front, back.filter (fun other => key other < key head) ++
        head :: back.filter fun other => key head ≤ key other, ?_, ?_⟩
      · simp [List.cons_append, inserted, first, below, kept, gone]
      · rwa [List.filter_cons_of_neg (by simpa using below)]

section Scans

variable {key : Row → Key} {limit : Nat} {rows before after : List Row} {row : Row}

private theorem mem_take_split (before after : List Row) (distinct : (before ++ row :: after).Nodup) :
    row ∈ (orderBy key (before ++ row :: after)).take limit ↔
      (before.filter fun other => key other ≤ key row).length +
        (after.filter fun other => key other < key row).length < limit := by
  obtain ⟨front, back, split, counted⟩ := orderBy_split key before after row
  have position := counted.length_eq
  rw [List.length_append] at position
  rw [← position, split, List.take_append]
  have apart : (front ++ row :: back).Nodup :=
    split ▸ (orderBy_perm key _).nodup_iff.mpr distinct
  have absent : row ∉ front.take limit := by
    intro member
    exact (List.nodup_append.mp apart).2.2 row (List.mem_of_mem_take member) row
      List.mem_cons_self rfl
  rw [List.mem_append, or_iff_right absent]
  cases room : limit - front.length with
  | zero => simp; omega
  | succ more => simp; omega

/-- Fewer rows than the limit come before a row that is taken, -/
theorem length_lt_of_mem_take (distinct : rows.Nodup) (taken : row ∈ (orderBy key rows).take limit) :
    (rows.filter fun other => key other < key row).length < limit := by
  obtain ⟨before, after, rfl⟩ :=
    List.append_of_mem (mem_orderBy.mp (List.mem_of_mem_take taken))
  have position := (mem_take_split before after distinct).mp taken
  have fewer : (before.filter fun other => key other < key row).length ≤
      (before.filter fun other => key other ≤ key row).length := by
    rw [← List.countP_eq_length_filter, ← List.countP_eq_length_filter]
    apply List.countP_mono_left
    intro other _ below
    simpa using (of_decide_eq_true below).le
  simp only [List.filter_append, List.length_append, List.filter_cons, lt_self_iff_false,
    decide_false, Bool.false_eq_true, ↓reduceIte]
  omega

/-- and more rows than the limit come before a row that is left, or have its key. -/
theorem lt_length_of_not_mem_take (distinct : rows.Nodup) (member : row ∈ rows)
    (left : row ∉ (orderBy key rows).take limit) :
    limit < (rows.filter fun other => key other ≤ key row).length := by
  obtain ⟨before, after, rfl⟩ := List.append_of_mem member
  have position := mt (mem_take_split before after distinct).mpr left
  have fewer : (after.filter fun other => key other < key row).length ≤
      (after.filter fun other => key other ≤ key row).length := by
    rw [← List.countP_eq_length_filter, ← List.countP_eq_length_filter]
    apply List.countP_mono_left
    intro other _ below
    simpa using (of_decide_eq_true below).le
  simp only [List.filter_append, List.length_append, List.filter_cons, le_refl, decide_true,
    ↓reduceIte, List.length_cons]
  omega

/-- Where the order by `key` can put two rows on different sides of the limit, `rank` does
not put them the other way round. -/
def AgreesAtLimit {Rank : Type} [LinearOrder Rank] (key : Row → Key) (rank : Row → Rank)
    (limit : Nat) (rows : List Row) : Prop :=
  ∀ taken ∈ rows, ∀ left ∈ rows,
    (rows.filter fun other => key other < key taken).length < limit →
    limit < (rows.filter fun other => key other ≤ key left).length →
    rank taken ≤ rank left

theorem agreesAtLimit_self : AgreesAtLimit key key limit rows := by
  intro taken _ left _ room full
  by_contra behind
  have fewer : (rows.filter fun other => key other ≤ key left).length ≤
      (rows.filter fun other => key other < key taken).length := by
    rw [← List.countP_eq_length_filter, ← List.countP_eq_length_filter]
    apply List.countP_mono_left
    intro other _ below
    simpa using (of_decide_eq_true below).trans_lt (not_le.mp behind)
  omega

/-- Rows that are ordered by one key are ordered by another at the limit, in whatever order
they are scanned, exactly when the keys agree there. -/
theorem first_take_iff {Rank : Type} [LinearOrder Rank] (rank : Row → Rank)
    (distinct : rows.Nodup) :
    (∀ scan : List Row, scan.Perm rows → First rank limit rows ((orderBy key scan).take limit)) ↔
      AgreesAtLimit key rank limit rows := by
  constructor
  · intro always taken member left present room full
    by_cases same : taken = left
    · exact same ▸ le_rfl
    -- a scan with one of them at its head and the other at its end
    obtain ⟨others, split⟩ : ∃ others, (taken :: (others ++ [left])).Perm rows := by
      classical
      have kept : left ∈ rows.erase taken := (List.mem_erase_of_ne (Ne.symm same)).mpr present
      refine ⟨(rows.erase taken).erase left, ?_⟩
      refine (List.Perm.cons taken ?_).trans (List.perm_cons_erase member).symm
      exact (List.perm_append_singleton left _).trans (List.perm_cons_erase kept).symm
    have apart := split.nodup_iff.mpr distinct
    have first := always _ split
    apply first.ahead left present
    · intro chosen
      have position := (mem_take_split (taken :: others) [] apart).mp chosen
      have counted := (split.filter fun other => decide (key other ≤ key left)).length_eq
      rw [← List.cons_append, List.filter_append, List.length_append] at counted
      have own : ([left].filter fun other => key other ≤ key left).length = 1 := by simp
      rw [own] at counted
      rw [List.filter_nil, List.length_nil] at position
      omega
    · apply (mem_take_split [] (others ++ [left]) apart).mpr
      have counted := (split.filter fun other => decide (key other < key taken)).length_eq
      rw [List.filter_cons_of_neg (by simp)] at counted
      rw [List.filter_nil, List.length_nil, Nat.zero_add, counted]
      exact room
  · intro agrees scan order
    have apart := order.nodup_iff.mpr distinct
    have first := first_take key limit scan
    refine ⟨first.included.trans order.subperm, by rw [first.count, order.length_eq], ?_⟩
    intro left present unchosen taken chosen
    have room := length_lt_of_mem_take apart chosen
    have full := lt_length_of_not_mem_take apart (order.mem_iff.mpr present) unchosen
    rw [(order.filter _).length_eq] at room full
    exact agrees taken (order.mem_iff.mp (mem_orderBy.mp (List.mem_of_mem_take chosen)))
      left present room full

end Scans

end Linq
