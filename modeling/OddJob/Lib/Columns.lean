import OddJob.Lib.Linq

/-! Rows with typed columns, and the `UPDATE` that assigns to some of the columns. -/

namespace Linq

/-- The columns of a row type. An assignment that its column does not accept cannot be
stored. -/
class Columns (Column : Type) (Row : outParam Type) where
  Value : Column → Type
  get : (column : Column) → Row → Value column
  set : (column : Column) → Value column → Row → Row
  accepts : (column : Column) → Value column → Bool
  get_set : ∀ column value row, accepts column value = true → get column (set column value row) = value
  get_set_other : ∀ column value row other, other ≠ column →
    get other (set column value row) = get other row
  ext : ∀ left right, (∀ column, get column left = get column right) → left = right

/-- `Set(column, value)` -/
abbrev Assignment (Column : Type) {Row : Type} [Columns Column Row] : Type :=
  (column : Column) × Columns.Value column

variable {Column Row : Type} [Columns Column Row]

def Assignment.accepted (assignment : Assignment Column) : Bool :=
  Columns.accepts assignment.1 assignment.2

/-- The assignments of one `SET`, of which a later one to the same column wins. -/
def assign (assignments : List (Assignment Column)) (row : Row) : Row :=
  assignments.foldl (fun row assignment => Columns.set assignment.1 assignment.2 row) row

/-- Exactly the named columns have taken the values they are given last. -/
structure Assigned (assignments : List (Assignment Column)) (before after : Row) : Prop where
  named : ∀ (front : List (Assignment Column)) (column : Column) (value : Columns.Value column)
    (back : List (Assignment Column)), assignments = front ++ ⟨column, value⟩ :: back →
    (∀ later ∈ back, later.1 ≠ column) → Columns.get column after = value
  others : ∀ column : Column, (∀ assignment ∈ assignments, assignment.1 ≠ column) →
    Columns.get column after = Columns.get column before

variable {assignments : List (Assignment Column)}

theorem get_assign_other (column : Column)
    (absent : ∀ assignment ∈ assignments, assignment.1 ≠ column) (row : Row) :
    Columns.get column (assign assignments row) = Columns.get column row := by
  induction assignments generalizing row with
  | nil => rfl
  | cons first rest ih =>
    have later := ih (fun other member => absent other (List.mem_cons_of_mem _ member))
      (Columns.set first.1 first.2 row)
    have different := absent first List.mem_cons_self
    exact later.trans (Columns.get_set_other _ _ _ _ (Ne.symm different))

theorem updateWhere_assign (selected : Row → Bool) (assignments : List (Assignment Column))
    (rows : List Row) : updateWhere selected (assign assignments) rows =
      rows.map fun row => assign (if selected row then assignments else []) row := by
  apply List.map_congr_left
  intro row _
  split <;> rfl

variable [DecidableEq Column]

/-- The assignments that no later one to the same column replaces. -/
def standing : List (Assignment Column) → List (Assignment Column)
  | [] => []
  | first :: rest =>
    if rest.any fun later => later.1 = first.1 then standing rest else first :: standing rest

theorem mem_of_standing {assignment : Assignment Column}
    (stands : assignment ∈ standing assignments) : assignment ∈ assignments := by
  induction assignments with
  | nil => exact stands
  | cons first rest ih =>
    rw [standing] at stands
    split at stands
    · exact List.mem_cons_of_mem _ (ih stands)
    · rcases List.mem_cons.mp stands with rfl | later
      · exact List.mem_cons_self
      · exact List.mem_cons_of_mem _ (ih later)

theorem standing_of_last {front back : List (Assignment Column)} {assignment : Assignment Column}
    (last : ∀ later ∈ back, later.1 ≠ assignment.1) :
    assignment ∈ standing (front ++ assignment :: back) := by
  induction front with
  | nil =>
    have alone : (back.any fun later => later.1 = assignment.1) = false := by
      rw [List.any_eq_false]
      intro later member
      simpa using last later member
    rw [List.nil_append, standing, alone]
    exact List.mem_cons_self
  | cons first rest ih =>
    rw [List.cons_append, standing]
    split
    · exact ih
    · exact List.mem_cons_of_mem _ ih

theorem assigned_assign
    (accepted : ∀ assignment ∈ standing assignments, assignment.accepted = true) (row : Row) :
    Assigned assignments row (assign assignments row) := by
  constructor
  · rintro front column value back rfl last
    rw [assign, List.foldl_append, List.foldl_cons]
    have kept : Columns.get column (assign back (Columns.set column value (assign front row))) =
        Columns.get column (Columns.set column value (assign front row)) :=
      get_assign_other column last _
    exact kept.trans (Columns.get_set _ _ _ (accepted ⟨column, value⟩ (standing_of_last last)))
  · exact fun column absent => get_assign_other column absent row

/-- Each row has taken its own assignments. -/
def Rewrites (assignments : Row → List (Assignment Column)) (before after : List Row) : Prop :=
  List.Forall₂ (fun old new => Assigned (assignments old) old new) before after

theorem rewrites_map {assignments : Row → List (Assignment Column)}
    (accepted : ∀ row, ∀ assignment ∈ standing (assignments row), assignment.accepted = true)
    (rows : List Row) : Rewrites assignments rows (rows.map fun row => assign (assignments row) row) := by
  induction rows with
  | nil => exact .nil
  | cons first rest ih => exact .cons (assigned_assign (accepted first) first) ih

/-- Which statements a database carries out, each of them whole. It stores no value in a
column that does not accept it, and may refuse for reasons of its own. -/
structure Database (Column : Type) {Row : Type} [DecidableEq Column] [Columns Column Row] where
  takes : (Row → Bool) → List (Assignment Column) → List Row → Bool
  accepted : ∀ selected assignments rows, takes selected assignments rows = true →
    (∃ row ∈ rows, selected row = true) →
    ∀ assignment ∈ standing assignments, assignment.accepted = true

namespace Database

/-- `Where(selected).Set(..).Update()` -/
def update (database : Database Column) (selected : Row → Bool)
    (assignments : List (Assignment Column)) (rows : List Row) : Option (List Row) :=
  if database.takes selected assignments rows then
    some (updateWhere selected (assign assignments) rows)
  else none

variable {database : Database Column} {selected : Row → Bool} {rows after : List Row}

theorem update_eq_none_iff : database.update selected assignments rows = none ↔
    database.takes selected assignments rows = false := by
  simp [update]

theorem update_eq_some_iff : database.update selected assignments rows = some after ↔
    database.takes selected assignments rows = true ∧
      updateWhere selected (assign assignments) rows = after := by
  simp [update]

theorem rewrites_of_update (done : database.update selected assignments rows = some after) :
    Rewrites (fun row => if selected row then assignments else []) rows after := by
  obtain ⟨taken, rfl⟩ := update_eq_some_iff.mp done
  rw [updateWhere_assign, Rewrites, List.forall₂_map_right_iff, List.forall₂_same]
  intro row member
  apply assigned_assign
  intro assignment listed
  split at listed
  · rename_i chosen
    exact database.accepted _ _ _ taken ⟨row, member, chosen⟩ assignment listed
  · cases listed

theorem get_update {column : Column} (absent : ∀ assignment ∈ assignments, assignment.1 ≠ column)
    (done : database.update selected assignments rows = some after) :
    after.map (Columns.get column) = rows.map (Columns.get column) := by
  obtain ⟨taken, rfl⟩ := update_eq_some_iff.mp done
  rw [updateWhere, List.map_map]
  apply List.map_congr_left
  intro row _
  rw [Function.comp_apply]
  split
  · exact get_assign_other column absent row
  · rfl

omit [DecidableEq Column] in
private theorem any_imp_all_iff {selected : Row → Bool} {rows : List Row}
    {allowed : Assignment Column → Bool} :
    (!rows.any selected || assignments.all allowed) = true ↔
      ((∃ row ∈ rows, selected row = true) → ∀ assignment ∈ assignments, allowed assignment = true) := by
  rw [← List.any_eq_true, ← List.all_eq_true]
  cases rows.any selected <;> simp

/-- The database that refuses a statement only where a row would have to take an assignment
that is not allowed. -/
def allowing (allowed : Assignment Column → Bool)
    (accepted : ∀ assignment, allowed assignment = true → assignment.accepted = true) :
    Database Column where
  takes selected assignments rows := !rows.any selected || assignments.all allowed
  accepted _ _ _ taken found assignment member :=
    accepted assignment (any_imp_all_iff.mp taken found assignment (mem_of_standing member))

variable {allowed : Assignment Column → Bool}
  {accepted : ∀ assignment, allowed assignment = true → assignment.accepted = true}

theorem allowing_update_eq_some (all : ∀ assignment ∈ assignments, allowed assignment = true) :
    (allowing allowed accepted).update selected assignments rows =
      some (updateWhere selected (assign assignments) rows) :=
  update_eq_some_iff.mpr ⟨any_imp_all_iff.mpr fun _ => all, rfl⟩

theorem allowed_of_update
    (done : (allowing allowed accepted).update selected assignments rows = some after)
    (found : ∃ row ∈ rows, selected row = true) :
    ∀ assignment ∈ assignments, allowed assignment = true :=
  any_imp_all_iff.mp (update_eq_some_iff.mp done).1 found

end Database

end Linq
