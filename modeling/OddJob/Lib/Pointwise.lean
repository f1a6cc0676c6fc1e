import OddJob.Lib.Linq

/-! Query operators on two lists whose rows are related one by one: where the operators'
arguments agree on related rows, what they return is related in the same way. -/

namespace Linq

variable {Row Other Key Thrown : Type} {related : Row → Other → Prop}
  {rows : List Row} {others : List Other}

/-- `Select` with a function that may throw. -/
theorem mapM_eq_ok_iff {f : Row → Except Thrown Other} :
    rows.mapM f = .ok others ↔ rows.map f = others.map .ok := by
  induction rows generalizing others with
  | nil => cases others <;> simp [pure, Except.pure]
  | cons row rest ih =>
    rw [List.mapM_cons, List.map_cons]
    cases first : f row with
    | error thrown => cases others <;> simp [bind, Except.bind]
    | ok other =>
      cases others with
      | nil =>
        cases rest.mapM f <;> simp [bind, Except.bind, pure, Except.pure]
      | cons next later =>
        rw [List.map_cons, List.cons_eq_cons, ← ih]
        cases rest.mapM f <;> simp [bind, Except.bind, pure, Except.pure]

theorem mapM_returns_iff {f : Row → Except Thrown Other} :
    (∃ others, rows.mapM f = .ok others) ↔ ∀ row ∈ rows, ∃ other, f row = .ok other := by
  simp only [mapM_eq_ok_iff]
  constructor
  · rintro ⟨others, same⟩ row member
    have listed : f row ∈ others.map .ok := same ▸ List.mem_map_of_mem member
    obtain ⟨other, _, done⟩ := List.mem_map.mp listed
    exact ⟨other, done.symm⟩
  · intro each
    induction rows with
    | nil => exact ⟨[], rfl⟩
    | cons row rest ih =>
      obtain ⟨other, done⟩ := each row List.mem_cons_self
      obtain ⟨others, same⟩ := ih fun next member => each next (List.mem_cons_of_mem row member)
      exact ⟨other :: others, by rw [List.map_cons, List.map_cons, done, same]⟩

/-- `Where` with a test that may throw. -/
def whereThrows (passes : Row → Except Thrown Bool) : List Row → Except Thrown (List Row)
  | [] => .ok []
  | row :: rest => do
    let kept ← passes row
    let later ← whereThrows passes rest
    return if kept then row :: later else later

theorem whereThrows_map {passes : Row → Except Thrown Bool} {accepts : Other → Bool}
    {select : Other → Row} (total : ∀ other ∈ others, passes (select other) = .ok (accepts other)) :
    whereThrows passes (others.map select) = .ok ((others.filter accepts).map select) := by
  induction others with
  | nil => rfl
  | cons other rest ih =>
    have later := ih fun next member => total next (List.mem_cons_of_mem other member)
    rw [List.map_cons, whereThrows, total other List.mem_cons_self, later, List.filter_cons]
    cases accepts other <;> rfl

theorem whereThrows_cons_eq_ok {passes : Row → Except Thrown Bool} {row : Row} {kept : List Row}
    (done : whereThrows passes (row :: rows) = .ok kept) :
    ∃ accepted later, passes row = .ok accepted ∧ whereThrows passes rows = .ok later ∧
      kept = if accepted then row :: later else later := by
  rw [whereThrows] at done
  cases first : passes row with
  | error thrown => rw [first] at done; cases done
  | ok accepted =>
    cases rest : whereThrows passes rows with
    | error thrown => rw [first, rest] at done; cases done
    | ok later =>
      rw [first, rest] at done
      cases done
      exact ⟨accepted, later, rfl, rfl, rfl⟩

theorem whereThrows_sublist {passes : Row → Except Thrown Bool} {kept : List Row}
    (done : whereThrows passes rows = .ok kept) : kept.Sublist rows := by
  induction rows generalizing kept with
  | nil =>
    cases done
    exact List.Sublist.refl _
  | cons row rest ih =>
    obtain ⟨accepted, later, _, rested, rfl⟩ := whereThrows_cons_eq_ok done
    cases accepted with
    | true => exact (ih rested).cons_cons row
    | false => exact (ih rested).cons row

theorem passes_of_mem_whereThrows {passes : Row → Except Thrown Bool} {kept : List Row} {row : Row}
    (done : whereThrows passes rows = .ok kept) (member : row ∈ kept) : passes row = .ok true := by
  induction rows generalizing kept with
  | nil =>
    cases done
    cases member
  | cons first rest ih =>
    obtain ⟨accepted, later, passed, rested, rfl⟩ := whereThrows_cons_eq_ok done
    cases accepted with
    | true =>
      rcases List.mem_cons.mp member with rfl | more
      · exact passed
      · exact ih rested more
    | false => exact ih rested member

theorem whereThrows_returns_iff {passes : Row → Except Thrown Bool} :
    (∃ kept, whereThrows passes rows = .ok kept) ↔
      ∀ row ∈ rows, ∃ accepted, passes row = .ok accepted := by
  induction rows with
  | nil => exact ⟨fun _ row none => (nomatch none), fun _ => ⟨[], rfl⟩⟩
  | cons first rest ih =>
    rw [List.forall_mem_cons, ← ih]
    constructor
    · rintro ⟨kept, done⟩
      obtain ⟨accepted, later, tested, rested, _⟩ := whereThrows_cons_eq_ok done
      exact ⟨⟨accepted, tested⟩, later, rested⟩
    · rintro ⟨⟨accepted, tested⟩, later, rested⟩
      rw [whereThrows, tested, rested]
      exact ⟨_, rfl⟩

theorem mem_whereThrows_of_passes {passes : Row → Except Thrown Bool} {kept : List Row} {row : Row}
    (done : whereThrows passes rows = .ok kept) (member : row ∈ rows)
    (passed : passes row = .ok true) : row ∈ kept := by
  induction rows generalizing kept with
  | nil => cases member
  | cons first rest ih =>
    obtain ⟨accepted, later, tested, rested, rfl⟩ := whereThrows_cons_eq_ok done
    rcases List.mem_cons.mp member with rfl | more
    · obtain rfl : accepted = true := by
        rw [passed] at tested
        cases tested
        rfl
      exact List.mem_cons_self
    · have listed := ih rested more
      cases accepted with
      | true => exact List.mem_cons_of_mem _ listed
      | false => exact listed

theorem forall₂_whereThrows {passes : Row → Except Thrown Bool} {passes' : Other → Except Thrown Bool}
    {kept : List Row} (rowwise : List.Forall₂ related rows others)
    (agree : ∀ row other, related row other → passes row = passes' other)
    (done : whereThrows passes rows = .ok kept) :
    ∃ kept', whereThrows passes' others = .ok kept' ∧ List.Forall₂ related kept kept' := by
  induction rowwise generalizing kept with
  | nil =>
    cases done
    exact ⟨[], rfl, .nil⟩
  | @cons row other rest rest' first _ ih =>
    obtain ⟨accepted, later, passed, rested, rfl⟩ := whereThrows_cons_eq_ok done
    obtain ⟨later', rested', relation⟩ := ih rested
    rw [whereThrows, ← agree row other first, passed, rested']
    cases accepted with
    | true => exact ⟨other :: later', rfl, .cons first relation⟩
    | false => exact ⟨later', rfl, relation⟩

theorem forall₂_map {Next Next' : Type} {related' : Next → Next' → Prop} {f : Row → Next}
    {f' : Other → Next'} (rowwise : List.Forall₂ related rows others)
    (kept : ∀ row ∈ rows, ∀ other ∈ others, related row other → related' (f row) (f' other)) :
    List.Forall₂ related' (rows.map f) (others.map f') := by
  induction rowwise with
  | nil => exact .nil
  | @cons row other rest rest' first _ ih =>
    refine .cons (kept row List.mem_cons_self other List.mem_cons_self first) (ih ?_)
    intro next member next' member'
    exact kept next (List.mem_cons_of_mem row member) next' (List.mem_cons_of_mem other member')

/-- Another relation that related rows have exactly where the first of them has a property. -/
theorem forall₂_iff_forall {result : Row → Other → Prop} {property : Row → Prop}
    (rowwise : List.Forall₂ related rows others)
    (each : ∀ row other, related row other → (result row other ↔ property row)) :
    List.Forall₂ result rows others ↔ ∀ row ∈ rows, property row := by
  induction rowwise with
  | nil => simp
  | @cons row other rest rest' first _ ih =>
    rw [List.forall₂_cons, List.forall_mem_cons, each row other first, ih]

theorem forall₂_zipIdx (rowwise : List.Forall₂ related rows others) (start : Nat) :
    List.Forall₂ (fun row other => related row.1 other.1 ∧ row.2 = other.2)
      (rows.zipIdx start) (others.zipIdx start) := by
  induction rowwise generalizing start with
  | nil => exact .nil
  | cons first _ ih => exact .cons ⟨first, rfl⟩ (ih (start + 1))

section Ordering

variable [LinearOrder Key]

private theorem forall₂_orderedInsert {key : Row → Key} {key' : Other → Key} {row : Row}
    {other : Other} (first : related row other) (rowwise : List.Forall₂ related rows others)
    (agree : ∀ row other, related row other → key row = key' other) :
    List.Forall₂ related (rows.orderedInsert (fun left right => key left ≤ key right) row)
      (others.orderedInsert (fun left right => key' left ≤ key' right) other) := by
  induction rowwise with
  | nil => exact .cons first .nil
  | @cons head head' rest rest' next more ih =>
    rw [List.orderedInsert_cons, List.orderedInsert_cons, agree row other first,
      agree head head' next]
    split
    · exact .cons first (.cons next more)
    · exact .cons next ih

theorem forall₂_orderBy {key : Row → Key} {key' : Other → Key}
    (rowwise : List.Forall₂ related rows others)
    (agree : ∀ row other, related row other → key row = key' other) :
    List.Forall₂ related (orderBy key rows) (orderBy key' others) := by
  induction rowwise with
  | nil => exact .nil
  | cons first _ ih => exact forall₂_orderedInsert first ih agree

end Ordering

end Linq
