import OddJob.Lib.Transition
import Mathlib.Order.Lattice
import Mathlib.Logic.Function.Basic

/-! One record that is worked on under leases. A worker claims the record under a
lock of its own, reads how often it has been attempted, hands it over, works on it
and reports back; reports may be late or lost, and a claim nobody reports on in
time can be taken over. -/

namespace Lease

open Transition

variable {Lock Time : Type} [LinearOrder Time]

inductive Status where
  /-- not visible to claims yet -/
  | hidden
  | fresh
  /-- waiting for another attempt -/
  | retrying
  | started
  | settled
  deriving DecidableEq, Repr

def Status.claimable : Status → Bool
  | .fresh | .retrying => true
  | _ => false

/-- How far the holder of a lease has come. -/
inductive Progress where
  | idle
  | handed
  | running
  | ended
  deriving DecidableEq, Repr

def Progress.begun : Progress → Bool
  | .running | .ended => true
  | _ => false

structure Holding (Time : Type) where
  deadline : Time
  /-- the attempts counted when the lease was read -/
  seen : Option Int := none
  progress : Progress := .idle
  startedAt : Option Time := none
  /-- the last report has arrived -/
  closed : Bool := false

structure Item (Lock Time : Type) where
  now : Time
  status : Status := .hidden
  holder : Option Lock := none
  deadline : Option Time := none
  attempts : Int := 0
  limit : Int := 0
  holdings : Lock → Option (Holding Time) := fun _ => none
  executions : Nat := 0

/-- What the holder of a lease does, or reports. -/
inductive Deed where
  | read
  | hand
  | begin
  | finish
  | start
  | settle
  | retry
  | refuse
  deriving DecidableEq, Repr

/-- The deeds that write to the record. -/
def Deed.reports : Deed → Bool
  | .start | .settle | .retry | .refuse => true
  | _ => false

inductive Action (Lock Time : Type) where
  | wait (later : Time)
  | publish (limit : Int)
  | claim (lock : Lock) (deadline : Time)
  | deed (lock : Lock) (deed : Deed)

section Machine

variable [DecidableEq Lock]

namespace Item

def hold (item : Item Lock Time) (lock : Lock) (holding : Holding Time) : Item Lock Time :=
  { item with holdings := Function.update item.holdings lock (some holding) }

/-- A report gives the claim up. -/
def report (item : Item Lock Time) (status : Status) : Item Lock Time :=
  { item with status, deadline := none }

omit [LinearOrder Time] in
@[simp] theorem holdings_hold (item : Item Lock Time) (lock : Lock) (holding : Holding Time) :
    (item.hold lock holding).holdings = Function.update item.holdings lock (some holding) := rfl

def act (item : Item Lock Time) (lock : Lock) (holding : Holding Time) :
    Deed → Option (Item Lock Time)
  | .read =>
    if holding.seen = none ∧ item.holder = some lock then
      some (item.hold lock { holding with seen := some item.attempts })
    else none
  | .hand =>
    if holding.progress = .idle ∧ holding.closed = false ∧ holding.startedAt = none then
      some (item.hold lock { holding with progress := .handed })
    else none
  | .begin =>
    if holding.progress = .handed ∧ holding.closed = false then
      some ({ item with executions := item.executions + 1 }.hold lock
        { holding with progress := .running })
    else none
  | .finish =>
    if holding.progress = .running ∧ holding.closed = false then
      some (item.hold lock { holding with progress := .ended })
    else none
  | .start =>
    if holding.progress ≠ .idle ∧ holding.closed = false ∧ holding.startedAt = none then
      some ((item.report .started).hold lock { holding with startedAt := some item.now })
    else none
  | .settle =>
    if holding.progress = .ended ∧ holding.closed = false then
      some ((item.report .settled).hold lock { holding with closed := true })
    else none
  | .retry =>
    if holding.progress = .ended ∧ holding.closed = false ∧ holding.seen.any (· < item.limit) then
      some ({ item.report .retrying with attempts := item.attempts + 1 }.hold lock
        { holding with closed := true })
    else none
  | .refuse =>
    if holding.progress = .idle ∧ holding.closed = false then
      some ((item.report .settled).hold lock { holding with closed := true })
    else none

def step (item : Item Lock Time) : Action Lock Time → Option (Item Lock Time)
  | .wait later => if item.now ≤ later then some { item with now := later } else none
  | .publish limit =>
    if item.status = .hidden then some { item with status := .fresh, limit } else none
  | .claim lock deadline =>
    if item.status.claimable = true ∧ item.deadline.all (· < item.now) = true ∧
        (item.holdings lock).isNone = true then
      some ({ item with holder := some lock, deadline := some deadline }.hold lock { deadline })
    else none
  | .deed lock deed => (item.holdings lock).bind fun holding => item.act lock holding deed

end Item

inductive Moves (item : Item Lock Time) : Action Lock Time → Item Lock Time → Prop where
  | waited (later : Time) (ordered : item.now ≤ later) :
      Moves item (.wait later) { item with now := later }
  | published (limit : Int) (hidden : item.status = .hidden) :
      Moves item (.publish limit) { item with status := .fresh, limit }
  | claimed (lock : Lock) (deadline : Time) (claimable : item.status.claimable = true)
      (expired : ∀ earlier, item.deadline = some earlier → earlier < item.now)
      (unused : item.holdings lock = none) :
      Moves item (.claim lock deadline)
        ({ item with holder := some lock, deadline := some deadline }.hold lock { deadline })
  | read (lock : Lock) (holding : Holding Time) (found : item.holdings lock = some holding)
      (unread : holding.seen = none) (own : item.holder = some lock) :
      Moves item (.deed lock .read) (item.hold lock { holding with seen := some item.attempts })
  | handed (lock : Lock) (holding : Holding Time) (found : item.holdings lock = some holding)
      (idle : holding.progress = .idle) (unclosed : holding.closed = false)
      (unstarted : holding.startedAt = none) :
      Moves item (.deed lock .hand) (item.hold lock { holding with progress := .handed })
  | began (lock : Lock) (holding : Holding Time) (found : item.holdings lock = some holding)
      (handed : holding.progress = .handed) (unclosed : holding.closed = false) :
      Moves item (.deed lock .begin) ({ item with executions := item.executions + 1 }.hold lock
        { holding with progress := .running })
  | finished (lock : Lock) (holding : Holding Time) (found : item.holdings lock = some holding)
      (running : holding.progress = .running) (unclosed : holding.closed = false) :
      Moves item (.deed lock .finish) (item.hold lock { holding with progress := .ended })
  | started (lock : Lock) (holding : Holding Time) (found : item.holdings lock = some holding)
      (busy : holding.progress ≠ .idle) (unclosed : holding.closed = false) :
      Moves item (.deed lock .start)
        ((item.report .started).hold lock { holding with startedAt := some item.now })
  | settled (lock : Lock) (holding : Holding Time) (found : item.holdings lock = some holding)
      (ended : holding.progress = .ended) (unclosed : holding.closed = false) :
      Moves item (.deed lock .settle)
        ((item.report .settled).hold lock { holding with closed := true })
  | retried (lock : Lock) (holding : Holding Time) (seen : Int)
      (found : item.holdings lock = some holding) (ended : holding.progress = .ended)
      (unclosed : holding.closed = false) (read : holding.seen = some seen)
      (more : seen < item.limit) :
      Moves item (.deed lock .retry)
        ({ item.report .retrying with attempts := item.attempts + 1 }.hold lock
          { holding with closed := true })
  | refused (lock : Lock) (holding : Holding Time) (found : item.holdings lock = some holding)
      (idle : holding.progress = .idle) (unclosed : holding.closed = false) :
      Moves item (.deed lock .refuse)
        ((item.report .settled).hold lock { holding with closed := true })

private theorem moves_of_act {item after : Item Lock Time} {lock : Lock} {holding : Holding Time}
    {deed : Deed} (found : item.holdings lock = some holding)
    (taken : item.act lock holding deed = some after) : Moves item (.deed lock deed) after := by
  cases deed <;> obtain ⟨guard, ⟨⟩⟩ := Option.ite_none_right_eq_some.mp taken
  · exact .read lock holding found guard.1 guard.2
  · exact .handed lock holding found guard.1 guard.2.1 guard.2.2
  · exact .began lock holding found guard.1 guard.2
  · exact .finished lock holding found guard.1 guard.2
  · exact .started lock holding found guard.1 guard.2.1
  · exact .settled lock holding found guard.1 guard.2
  · obtain ⟨ended, unclosed, some_more⟩ := guard
    obtain ⟨seen, read, more⟩ := (Option.any_eq_true _ _).mp some_more
    exact .retried lock holding seen found ended unclosed read (of_decide_eq_true more)
  · exact .refused lock holding found guard.1 guard.2

theorem moves_of_step {item after : Item Lock Time} {action : Action Lock Time}
    (taken : item.step action = some after) : Moves item action after := by
  cases action with
  | wait later =>
    obtain ⟨ordered, ⟨⟩⟩ := Option.ite_none_right_eq_some.mp taken
    exact .waited later ordered
  | publish limit =>
    obtain ⟨hidden, ⟨⟩⟩ := Option.ite_none_right_eq_some.mp taken
    exact .published limit hidden
  | claim lock deadline =>
    obtain ⟨⟨claimable, expired, unused⟩, ⟨⟩⟩ := Option.ite_none_right_eq_some.mp taken
    refine .claimed lock deadline claimable (fun earlier same => ?_)
      (Option.isNone_iff_eq_none.mp unused)
    simpa [same] using expired
  | deed lock deed =>
    obtain ⟨holding, found, acted⟩ := Option.bind_eq_some_iff.mp taken
    exact moves_of_act found acted

end Machine

/-- Whoever was handed the record reports the start of the work by the deadline of the claim. -/
def Timely (item : Item Lock Time) : Prop :=
  ∀ lock holding, item.holdings lock = some holding → holding.progress ≠ .idle →
    holding.startedAt.getD item.now ≤ holding.deadline

/-- The lease has been handed ended, or still may be in time. -/
structure Holding.Live (holding : Holding Time) (now : Time) : Prop where
  unclosed : holding.closed = false
  inTime : holding.progress ≠ .idle ∨ now ≤ holding.deadline

/-- The record is as the holder of the lease believes it to be. -/
structure Holds (item : Item Lock Time) (lock : Lock) (holding : Holding Time) : Prop where
  own : item.holder = some lock
  seen : ∀ seen, holding.seen = some seen → seen = item.attempts
  waiting : item.status.claimable = true →
    item.deadline = some holding.deadline ∧ holding.startedAt = none

/-- The current attempt has been used up. -/
def Spent (item : Item Lock Time) : Prop :=
  ∃ lock holding, item.holder = some lock ∧ item.holdings lock = some holding ∧
    holding.progress.begun = true ∧ (holding.closed = true → item.status = .settled)

omit [LinearOrder Time] in
theorem Spent.of_own {item : Item Lock Time} {lock : Lock} {holding : Holding Time}
    (spent : Spent item) (own : item.holder = some lock)
    (found : item.holdings lock = some holding) : holding.progress.begun = true := by
  obtain ⟨other, others, holder, present, begun, _⟩ := spent
  obtain rfl : lock = other := Option.some.inj (own.symm.trans holder)
  obtain rfl : holding = others := Option.some.inj (found.symm.trans present)
  exact begun

structure Guarded (item : Item Lock Time) : Prop where
  held : ∀ lock holding, item.holdings lock = some holding → holding.Live item.now →
    Holds item lock holding
  hidden : item.status = .hidden → item.attempts = 0 ∧ ∀ lock, item.holdings lock = none
  executed : item.executions ≤ item.attempts ∨
    item.executions ≤ item.attempts + 1 ∧ Spent item
  bounded : item.attempts ≤ max item.limit 0
  retrying : item.status = .retrying → item.attempts ≤ item.limit

theorem guarded_initial (now : Time) : Guarded ({ now } : Item Lock Time) where
  held _ _ found := by cases found
  hidden _ := ⟨rfl, fun _ => rfl⟩
  executed := .inl (Int.le_refl _)
  bounded := Int.le_max_right _ _
  retrying waiting := by cases waiting

namespace Guarded

variable {item : Item Lock Time} {lock other : Lock} {holding : Holding Time}

theorem alone {others : Holding Time} (valid : Guarded item)
    (left : item.holdings lock = some holding) (live : holding.Live item.now)
    (right : item.holdings other = some others) (alive : others.Live item.now) : lock = other := by
  have mine := (valid.held lock holding left live).own
  have theirs := (valid.held other others right alive).own
  exact Option.some.inj (mine.symm.trans theirs)

theorem free (valid : Guarded item) (timely : Timely item) (claimable : item.status.claimable = true)
    (expired : ∀ earlier, item.deadline = some earlier → earlier < item.now)
    (found : item.holdings lock = some holding) : ¬ holding.Live item.now := by
  intro live
  obtain ⟨claimed, unstarted⟩ := (valid.held lock holding found live).waiting claimable
  have late := expired _ claimed
  rcases live.inTime with busy | inTime
  · have early := timely lock holding found busy
    rw [unstarted] at early
    exact absurd late (not_lt_of_ge early)
  · exact absurd late (not_lt_of_ge inTime)

theorem unspent (valid : Guarded item) (timely : Timely item)
    (claimable : item.status.claimable = true)
    (expired : ∀ earlier, item.deadline = some earlier → earlier < item.now) : ¬ Spent item := by
  rintro ⟨lock, holding, _, found, begun, settled⟩
  cases closed : holding.closed with
  | true =>
    rw [settled closed] at claimable
    cases claimable
  | false =>
    refine valid.free timely claimable expired found ⟨closed, .inl fun idle => ?_⟩
    rw [idle] at begun
    cases begun

variable [DecidableEq Lock]

private theorem held_report {after : Item Lock Time} {changed : Holding Time}
    (valid : Guarded item) (found : item.holdings lock = some holding)
    (live : holding.Live item.now) (now : after.now = item.now)
    (holdings : after.holdings = Function.update item.holdings lock (some changed))
    (own : changed.Live after.now → Holds after lock changed) :
    ∀ other others, after.holdings other = some others → others.Live after.now →
      Holds after other others := by
  intro other others present alive
  rw [holdings] at present
  by_cases same : other = lock
  · subst same
    obtain rfl : changed = others := by simpa using present
    exact own alive
  · rw [Function.update_of_ne same] at present
    rw [now] at alive
    exact absurd (valid.alone present alive found live) same

private theorem held_progress {after : Item Lock Time} {changed : Holding Time}
    (valid : Guarded item) (now : after.now = item.now) (holder : after.holder = item.holder)
    (status : after.status = item.status) (deadline : after.deadline = item.deadline)
    (attempts : after.attempts = item.attempts)
    (holdings : after.holdings = Function.update item.holdings lock (some changed))
    (own : changed.Live after.now → Holds after lock changed) :
    ∀ other others, after.holdings other = some others → others.Live after.now →
      Holds after other others := by
  intro other others present alive
  rw [holdings] at present
  by_cases same : other = lock
  · subst same
    obtain rfl : changed = others := by simpa using present
    exact own alive
  · rw [Function.update_of_ne same] at present
    rw [now] at alive
    obtain ⟨mine, seen, waiting⟩ := valid.held other others present alive
    exact ⟨holder.trans mine, attempts ▸ seen, status ▸ deadline ▸ waiting⟩

omit [DecidableEq Lock] in
private theorem unhidden (valid : Guarded item) (found : item.holdings lock = some holding) :
    item.status ≠ .hidden := by
  intro invisible
  rw [(valid.hidden invisible).2 lock] at found
  cases found

private theorem progress {after : Item Lock Time} {changed : Holding Time}
    (valid : Guarded item) (found : item.holdings lock = some holding)
    (now : after.now = item.now) (holder : after.holder = item.holder)
    (status : after.status = item.status) (deadline : after.deadline = item.deadline)
    (attempts : after.attempts = item.attempts) (limit : after.limit = item.limit)
    (holdings : after.holdings = Function.update item.holdings lock (some changed))
    (own : changed.Live after.now → Holds after lock changed)
    (executed : after.executions ≤ after.attempts ∨
      after.executions ≤ after.attempts + 1 ∧ Spent after) : Guarded after := by
  refine ⟨valid.held_progress now holder status deadline attempts holdings own, ?_, executed,
    ?_, ?_⟩
  · rw [status]
    exact fun hidden => (valid.unhidden found hidden).elim
  · rw [attempts, limit]
    exact valid.bounded
  · rw [status, attempts, limit]
    exact valid.retrying

omit [LinearOrder Time] in
private theorem spent_update {after : Item Lock Time} {changed : Holding Time}
    (spent : Spent item) (found : item.holdings lock = some holding)
    (holder : after.holder = item.holder)
    (holdings : after.holdings = Function.update item.holdings lock (some changed))
    (begun : holding.progress.begun = true → changed.progress.begun = true)
    (settled : item.status = .settled → after.status = .settled)
    (closed : changed.closed = true → holding.closed = true ∨ after.status = .settled) :
    Spent after := by
  obtain ⟨other, others, own, present, started, done⟩ := spent
  by_cases same : other = lock
  · subst same
    obtain rfl : holding = others := Option.some.inj (found.symm.trans present)
    refine ⟨other, changed, holder.trans own, by simp [holdings], begun started, fun ended => ?_⟩
    rcases closed ended with earlier | now
    · exact settled (done earlier)
    · exact now
  · refine ⟨other, others, holder.trans own, ?_, started, fun ended => settled (done ended)⟩
    rw [holdings, Function.update_of_ne same]
    exact present

omit [DecidableEq Lock] in
private theorem waited (valid : Guarded item) {later : Time} (ordered : item.now ≤ later) :
    Guarded { item with now := later } := by
  refine { valid with held := fun lock holding found live => ?_ }
  have earlier : holding.Live item.now :=
    ⟨live.unclosed, live.inTime.imp_right (le_trans ordered)⟩
  obtain ⟨own, seen, waiting⟩ := valid.held lock holding found earlier
  exact ⟨own, seen, waiting⟩

omit [DecidableEq Lock] in
private theorem published (valid : Guarded item) (limit : Int) (hidden : item.status = .hidden) :
    Guarded { item with status := .fresh, limit } := by
  obtain ⟨untried, unheld⟩ := valid.hidden hidden
  constructor
  · intro lock holding found
    rw [show _ = none from unheld lock] at found
    cases found
  · intro still
    cases still
  · refine valid.executed.imp_right fun ⟨_, lock, holding, _, found, _⟩ => ?_
    rw [unheld lock] at found
    cases found
  · rw [show _ = (0 : Int) from untried]
    exact Int.le_max_right _ _
  · intro waiting
    cases waiting

private theorem claimed (valid : Guarded item) (timely : Timely item) (deadline : Time)
    (claimable : item.status.claimable = true)
    (expired : ∀ earlier, item.deadline = some earlier → earlier < item.now) :
    Guarded ({ item with holder := some lock, deadline := some deadline }.hold lock
      { deadline }) := by
  constructor
  · intro other others present live
    rw [Item.holdings_hold] at present
    by_cases same : other = lock
    · subst same
      obtain rfl : { deadline } = others := by simpa using present
      exact ⟨rfl, fun _ seen => (by cases seen), fun _ => ⟨rfl, rfl⟩⟩
    · rw [Function.update_of_ne same] at present
      exact absurd live (valid.free timely claimable expired present)
  · intro hidden
    rw [show item.status = .hidden from hidden] at claimable
    cases claimable
  · exact .inl (valid.executed.resolve_right fun spent =>
      valid.unspent timely claimable expired spent.2)
  · exact valid.bounded
  · exact valid.retrying

private theorem read (valid : Guarded item) (found : item.holdings lock = some holding)
    (own : item.holder = some lock) :
    Guarded (item.hold lock { holding with seen := some item.attempts }) := by
  refine valid.progress found rfl rfl rfl rfl rfl rfl rfl (fun live => ?_) ?_
  · obtain ⟨_, _, waiting⟩ := valid.held lock holding found ⟨live.unclosed, live.inTime⟩
    exact ⟨own, fun seen same => (Option.some.inj same).symm, waiting⟩
  · exact valid.executed.imp_right fun ⟨bound, spent⟩ =>
      ⟨bound, spent_update spent found rfl rfl id id Or.inl⟩

private theorem handed (valid : Guarded item)
    (timelyAfter : Timely (item.hold lock { holding with progress := .handed }))
    (found : item.holdings lock = some holding) (idle : holding.progress = .idle)
    (unclosed : holding.closed = false) (unstarted : holding.startedAt = none) :
    Guarded (item.hold lock { holding with progress := .handed }) := by
  -- the new owner has not reported yet, so the deadline has not passed
  have inTime := timelyAfter lock { holding with progress := .handed } (by simp) (by simp)
  rw [unstarted] at inTime
  have live : holding.Live item.now := ⟨unclosed, .inr inTime⟩
  obtain ⟨own, seen, waiting⟩ := valid.held lock holding found live
  refine valid.progress found rfl rfl rfl rfl rfl rfl rfl (fun _ => ⟨own, seen, waiting⟩) ?_
  refine valid.executed.imp_right fun ⟨bound, spent⟩ =>
    ⟨bound, spent_update spent found rfl rfl (fun begun => ?_) id Or.inl⟩
  rw [idle] at begun
  cases begun

private theorem began (valid : Guarded item) (found : item.holdings lock = some holding)
    (handed : holding.progress = .handed) (unclosed : holding.closed = false) :
    Guarded ({ item with executions := item.executions + 1 }.hold lock
      { holding with progress := .running }) := by
  have live : holding.Live item.now := ⟨unclosed, .inl (by simp [handed])⟩
  obtain ⟨own, seen, waiting⟩ := valid.held lock holding found live
  refine valid.progress found rfl rfl rfl rfl rfl rfl rfl (fun _ => ⟨own, seen, waiting⟩) ?_
  rcases valid.executed with fewer | ⟨_, spent⟩
  · refine .inr ⟨?_, lock, _, own, Function.update_self .., rfl, fun closed => ?_⟩
    · show ((item.executions + 1 : Nat) : Int) ≤ item.attempts + 1
      omega
    · rw [show _ = false from unclosed] at closed
      cases closed
  · have begun := spent.of_own own found
    rw [handed] at begun
    cases begun

private theorem finished (valid : Guarded item) (found : item.holdings lock = some holding)
    (running : holding.progress = .running) (unclosed : holding.closed = false) :
    Guarded (item.hold lock { holding with progress := .ended }) := by
  have live : holding.Live item.now := ⟨unclosed, .inl (by simp [running])⟩
  obtain ⟨own, seen, waiting⟩ := valid.held lock holding found live
  refine valid.progress found rfl rfl rfl rfl rfl rfl rfl (fun _ => ⟨own, seen, waiting⟩) ?_
  exact valid.executed.imp_right fun ⟨bound, spent⟩ =>
    ⟨bound, spent_update spent found rfl rfl (fun _ => rfl) id Or.inl⟩

private theorem started (valid : Guarded item) (found : item.holdings lock = some holding)
    (busy : holding.progress ≠ .idle) (unclosed : holding.closed = false) :
    Guarded ((item.report .started).hold lock { holding with startedAt := some item.now }) := by
  have live : holding.Live item.now := ⟨unclosed, .inl busy⟩
  obtain ⟨own, seen, _⟩ := valid.held lock holding found live
  constructor
  · exact valid.held_report found live rfl rfl fun _ =>
      ⟨own, seen, fun claimable => (by cases claimable)⟩
  · intro hidden
    cases hidden
  · refine valid.executed.imp_right fun ⟨bound, spent⟩ =>
      ⟨bound, lock, _, own, Function.update_self .., ?_, fun closed => ?_⟩
    · have begun := spent.of_own own found
      exact begun
    · rw [show _ = false from unclosed] at closed
      cases closed
  · exact valid.bounded
  · intro waiting
    cases waiting

private theorem settled (valid : Guarded item) (found : item.holdings lock = some holding)
    (ended : holding.progress = .ended) (unclosed : holding.closed = false) :
    Guarded ((item.report .settled).hold lock { holding with closed := true }) := by
  have live : holding.Live item.now := ⟨unclosed, .inl (by simp [ended])⟩
  obtain ⟨own, _, _⟩ := valid.held lock holding found live
  constructor
  · refine valid.held_report found live rfl rfl fun closed => ?_
    cases closed.unclosed
  · intro hidden
    cases hidden
  · refine valid.executed.imp_right fun ⟨bound, spent⟩ =>
      ⟨bound, lock, _, own, Function.update_self .., ?_, fun _ => rfl⟩
    have begun := spent.of_own own found
    exact begun
  · exact valid.bounded
  · intro waiting
    cases waiting

private theorem retried (valid : Guarded item) {seen : Int}
    (found : item.holdings lock = some holding) (ended : holding.progress = .ended)
    (unclosed : holding.closed = false) (read : holding.seen = some seen)
    (more : seen < item.limit) :
    Guarded ({ item.report .retrying with attempts := item.attempts + 1 }.hold lock
      { holding with closed := true }) := by
  have live : holding.Live item.now := ⟨unclosed, .inl (by simp [ended])⟩
  have counted := (valid.held lock holding found live).seen seen read
  have within : item.attempts + 1 ≤ item.limit := by omega
  constructor
  · refine valid.held_report found live rfl rfl fun closed => ?_
    cases closed.unclosed
  · intro hidden
    cases hidden
  · left
    show (item.executions : Int) ≤ item.attempts + 1
    rcases valid.executed with fewer | ⟨bound, _⟩
    · omega
    · exact bound
  · exact Int.le_trans within (Int.le_max_left _ _)
  · exact fun _ => within

private theorem refused (valid : Guarded item) (found : item.holdings lock = some holding) :
    Guarded ((item.report .settled).hold lock { holding with closed := true }) := by
  constructor
  · intro other others present live
    rw [Item.holdings_hold] at present
    by_cases same : other = lock
    · subst same
      obtain rfl : { holding with closed := true } = others := by simpa using present
      cases live.unclosed
    · rw [Function.update_of_ne same] at present
      obtain ⟨own, seen, _⟩ := valid.held other others present live
      exact ⟨own, seen, fun claimable => (by cases claimable)⟩
  · intro hidden
    cases hidden
  · exact valid.executed.imp_right fun ⟨bound, spent⟩ =>
      ⟨bound, spent_update spent found rfl rfl id (fun _ => rfl) fun _ => .inr rfl⟩
  · exact valid.bounded
  · intro waiting
    cases waiting

theorem moves {after : Item Lock Time} {action : Action Lock Time} (valid : Guarded item)
    (timely : Timely item) (timelyAfter : Timely after) (move : Moves item action after) :
    Guarded after := by
  cases move with
  | waited later ordered => exact valid.waited ordered
  | published limit hidden => exact valid.published limit hidden
  | claimed lock deadline claimable expired unused =>
    exact valid.claimed timely deadline claimable expired
  | read lock holding found unread own => exact valid.read found own
  | handed lock holding found idle unclosed unstarted =>
    exact valid.handed timelyAfter found idle unclosed unstarted
  | began lock holding found handed unclosed => exact valid.began found handed unclosed
  | finished lock holding found running unclosed => exact valid.finished found running unclosed
  | started lock holding found busy unclosed => exact valid.started found busy unclosed
  | settled lock holding found ended unclosed => exact valid.settled found ended unclosed
  | retried lock holding seen found ended unclosed read more =>
    exact valid.retried found ended unclosed read more
  | refused lock holding found => exact valid.refused found

end Guarded

/-- In a timely run the invariant holds throughout. -/
theorem guarded_of_reaches {item : Item Lock Time} {start : Time} [DecidableEq Lock]
    (reached : Reaches Item.step (staying Item.step Timely) { now := start } item) :
    Guarded item := by
  have initial : Timely ({ now := start } : Item Lock Time) := fun _ _ found => by cases found
  refine reached.invariant_with Timely (fun _ earlier => earlier.stayed initial)
    (guarded_initial start) ?_
  exact fun _ _ _ timely timelyAfter valid _ taken =>
    valid.moves timely timelyAfter (moves_of_step taken)

/-- The action is a report only where the record still carries the lock of the lease. -/
def Owned (item : Item Lock Time) (action : Action Lock Time) : Prop :=
  ∀ lock deed, action = .deed lock deed → deed.reports = true → item.holder = some lock

structure Fenced (item : Item Lock Time) : Prop where
  seen : ∀ lock holding seen, item.holder = some lock → item.holdings lock = some holding →
    holding.closed = false → holding.seen = some seen → seen = item.attempts
  settled : item.status = .settled → ∀ lock holding, item.holder = some lock →
    item.holdings lock = some holding → holding.closed = true
  retrying : item.status = .retrying → item.attempts ≤ item.limit

namespace Fenced

variable {item after : Item Lock Time} [DecidableEq Lock]

omit [LinearOrder Time] [DecidableEq Lock] in
theorem initial {start : Time} : Fenced ({ now := start } : Item Lock Time) where
  seen _ _ _ own := by cases own
  settled ended := by cases ended
  retrying waiting := by cases waiting

omit [LinearOrder Time] in
private theorem progress {lock : Lock} {holding changed : Holding Time} (valid : Fenced item)
    (found : item.holdings lock = some holding) (holder : after.holder = item.holder)
    (status : after.status = item.status) (attempts : after.attempts = item.attempts)
    (limit : after.limit = item.limit)
    (holdings : after.holdings = Function.update item.holdings lock (some changed))
    (closed : changed.closed = holding.closed)
    (read : changed.seen = holding.seen ∨ changed.seen = some item.attempts) : Fenced after := by
  constructor
  · intro other others seen own present unclosed known
    rw [holder] at own
    rw [holdings] at present
    rw [attempts]
    by_cases same : other = lock
    · subst same
      obtain rfl : changed = others := by simpa using present
      rcases read with old | new
      · exact valid.seen other holding seen own found (closed ▸ unclosed) (old ▸ known)
      · exact (Option.some.inj (new.symm.trans known)).symm
    · rw [Function.update_of_ne same] at present
      exact valid.seen other others seen own present unclosed known
  · intro ended other others own present
    rw [holder] at own
    rw [holdings] at present
    rw [status] at ended
    by_cases same : other = lock
    · subst same
      obtain rfl : changed = others := by simpa using present
      exact closed.trans (valid.settled ended other holding own found)
    · rw [Function.update_of_ne same] at present
      exact valid.settled ended other others own present
  · rw [status, attempts, limit]
    exact valid.retrying

omit [LinearOrder Time] in
private theorem reported {lock : Lock} {changed : Holding Time} (own : item.holder = some lock)
    (holder : after.holder = item.holder)
    (holdings : after.holdings = Function.update item.holdings lock (some changed))
    (seen : changed.closed = false → ∀ seen, changed.seen = some seen → seen = after.attempts)
    (settled : after.status = .settled → changed.closed = true)
    (retrying : after.status = .retrying → after.attempts ≤ after.limit) : Fenced after := by
  have only {other : Lock} {others : Holding Time} (mine : after.holder = some other)
      (present : after.holdings other = some others) : others = changed := by
    obtain rfl : lock = other := Option.some.inj (own.symm.trans (holder.symm.trans mine))
    rw [holdings, Function.update_self] at present
    exact (Option.some.inj present).symm
  constructor
  · intro other others count mine present unclosed known
    obtain rfl := only mine present
    exact seen unclosed count known
  · intro ended other others mine present
    obtain rfl := only mine present
    exact settled ended
  · exact retrying

theorem moves {action : Action Lock Time} (valid : Fenced item) (owned : Owned item action)
    (move : Moves item action after) : Fenced after := by
  cases move with
  | waited later ordered => exact ⟨valid.seen, valid.settled, valid.retrying⟩
  | published limit hidden =>
    refine ⟨valid.seen, fun ended => ?_, fun waiting => ?_⟩
    · cases ended
    · cases waiting
  | claimed lock deadline claimable expired unused =>
    constructor
    · intro other others seen own present unclosed known
      obtain rfl : lock = other := Option.some.inj own
      obtain rfl : { deadline } = others := by simpa using present
      cases known
    · intro ended
      rw [show item.status = .settled from ended] at claimable
      cases claimable
    · exact valid.retrying
  | read lock holding found unread own =>
    exact valid.progress found rfl rfl rfl rfl rfl rfl (.inr rfl)
  | handed lock holding found | began lock holding found | finished lock holding found =>
    exact valid.progress found rfl rfl rfl rfl rfl rfl (.inl rfl)
  | started lock holding found busy unclosed =>
    have own := owned lock .start rfl rfl
    refine reported own rfl rfl (fun _ seen known => ?_) (fun ended => ?_) (fun waiting => ?_)
    · exact valid.seen lock holding seen own found unclosed known
    · cases ended
    · cases waiting
  | settled lock holding found ended unclosed =>
    refine reported (owned lock .settle rfl rfl) rfl rfl (fun claimable => ?_) (fun _ => rfl) ?_
    · cases claimable
    · intro waiting
      cases waiting
  | retried lock holding seen found ended unclosed read more =>
    have own := owned lock .retry rfl rfl
    have counted := valid.seen lock holding seen own found unclosed read
    refine reported own rfl rfl (fun claimable => ?_) (fun ended => ?_) (fun _ => ?_)
    · cases claimable
    · cases ended
    · show item.attempts + 1 ≤ item.limit
      omega
  | refused lock holding found idle unclosed =>
    refine reported (owned lock .refuse rfl rfl) rfl rfl (fun claimable => ?_) (fun _ => rfl) ?_
    · cases claimable
    · intro waiting
      cases waiting

/-- A settled record stays settled: its holder has nothing left to report. -/
theorem settled_stays {action : Action Lock Time} (valid : Fenced item)
    (owned : Owned item action) (move : Moves item action after)
    (ended : item.status = .settled) : after.status = .settled := by
  have finished {lock : Lock} {holding : Holding Time} (found : item.holdings lock = some holding)
      (unclosed : holding.closed = false) : item.holder ≠ some lock := by
    intro own
    rw [valid.settled ended lock holding own found] at unclosed
    cases unclosed
  cases move with
  | waited | read | handed | began | finished => exact ended
  | published limit hidden =>
    rw [ended] at hidden
    cases hidden
  | claimed lock deadline claimable =>
    rw [ended] at claimable
    cases claimable
  | started lock holding found busy unclosed =>
    exact absurd (owned lock .start rfl rfl) (finished found unclosed)
  | settled | refused => rfl
  | retried lock holding seen found ended unclosed =>
    exact absurd (owned lock .retry rfl rfl) (finished found unclosed)

end Fenced

theorem fenced_of_reaches {item : Item Lock Time} {start : Time} [DecidableEq Lock]
    (reached : Reaches Item.step Owned { now := start } item) : Fenced item :=
  reached.invariant .initial fun _ _ _ valid owned taken => valid.moves owned (moves_of_step taken)

/-- Once settled, the record stays settled for the rest of the run. -/
theorem settled_of_reaches {item final : Item Lock Time} {start : Time} [DecidableEq Lock]
    (reached : Reaches Item.step Owned { now := start } item)
    (later : Reaches Item.step Owned item final) (ended : item.status = .settled) :
    final.status = .settled := by
  induction later with
  | refl => exact ended
  | next earlier owned taken ih =>
    exact (fenced_of_reaches (reached.trans earlier)).settled_stays owned (moves_of_step taken) ih

/-- The lease has begun to be worked off, and its last report is still to come. -/
structure Holding.Open (holding : Holding Time) : Prop where
  busy : holding.progress ≠ .idle
  reported : holding.startedAt.isSome = true
  unclosed : holding.closed = false

/-- A record that was started has a holder whose last report is still to come. -/
def Underway (item : Item Lock Time) : Prop :=
  item.status = .started → ∃ lock holding, item.holder = some lock ∧
    item.holdings lock = some holding ∧ holding.Open

omit [LinearOrder Time] in
private theorem Underway.progress {item after : Item Lock Time} [DecidableEq Lock] {lock : Lock}
    {holding changed : Holding Time} (valid : Underway item)
    (found : item.holdings lock = some holding) (holder : after.holder = item.holder)
    (status : after.status = item.status)
    (holdings : after.holdings = Function.update item.holdings lock (some changed))
    (kept : holding.Open → changed.Open) : Underway after := by
  intro started
  rw [status] at started
  obtain ⟨own, others, held, present, working⟩ := valid started
  refine ⟨own, ?_⟩
  rw [holder, holdings]
  by_cases same : own = lock
  · subst same
    obtain rfl : holding = others := Option.some.inj (found.symm.trans present)
    exact ⟨changed, held, Function.update_self .., kept working⟩
  · exact ⟨others, held, by rw [Function.update_of_ne same, present], working⟩

theorem Underway.moves {item after : Item Lock Time} [DecidableEq Lock]
    {action : Action Lock Time} (valid : Underway item) (owned : Owned item action)
    (move : Moves item action after) : Underway after := by
  cases move with
  | waited later ordered => exact valid
  | published limit hidden =>
    intro started
    cases started
  | claimed lock deadline claimable =>
    intro started
    rw [show item.status = .started from started] at claimable
    cases claimable
  | read lock holding found =>
    exact valid.progress found rfl rfl rfl fun working =>
      ⟨working.busy, working.reported, working.unclosed⟩
  | handed lock holding found | began lock holding found | finished lock holding found =>
    exact valid.progress found rfl rfl rfl fun working =>
      ⟨by simp, working.reported, working.unclosed⟩
  | started lock holding found busy unclosed =>
    intro _
    exact ⟨lock, _, owned lock .start rfl rfl, Function.update_self .., busy, rfl, unclosed⟩
  | settled | retried | refused =>
    intro started
    cases started

theorem underway_of_reaches {item : Item Lock Time} {start : Time} [DecidableEq Lock]
    (reached : Reaches Item.step Owned { now := start } item) : Underway item :=
  @Reaches.invariant _ _ _ _ _ _ Underway reached (fun started => by cases started)
    fun _ _ _ valid owned taken => valid.moves owned (moves_of_step taken)

end Lease
