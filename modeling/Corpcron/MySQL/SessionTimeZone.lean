import Corpcron.Lib.Trace
import Corpcron.MySQL.RowInvariant
import Corpcron.Scheduler.DueTimes

/-!
# Due in MySQL

`next_run_at` is the local time of its instant, with the offset of the zone at
that instant.  It is compared with `NOW()`, which MySQL computes with the time
zone of the session: the offset that was in force when the connection was
opened, in hours and minutes, for as long as the connection lives.

`runsOnTime_iff` says for which instants the comparison of local times is the
comparison of instants at every later query: the two offsets are the same, or
the instant is past for both when the connection is opened.  With daylight
saving a connection that is opened in winter holds back what is scheduled in
summer, and one that is opened in summer runs too early what is scheduled in
winter.
-/

namespace Corpcron

open Lib

/-! ## The time zone of a session -/

/-- What the zone adds to UTC at an instant. -/
def Zone.offset (z : Zone) (sec : Int) : Int := z.standard + z.saving sec

/-- A text `+hh:mm` or `-hh:mm`. -/
structure OffsetText where
  negative : Bool
  hours : Nat
  minutes : Nat
deriving DecidableEq

/-- `local_timezone_offset` at time `now`.  `%z` prints the offset in whole
minutes; with three digits for the hours it does not have the expected size. -/
def localTimezoneOffset (z : Zone) (now : Int) : OffsetText :=
  let minutes := (z.offset now).natAbs / 60
  if minutes / 60 < 100 then ⟨decide (z.offset now < 0), minutes / 60, minutes % 60⟩
  else ⟨false, 0, 0⟩

/-- What `SET time_zone` makes of the text. -/
def OffsetText.seconds (text : OffsetText) : Int :=
  let seconds : Int := ((text.hours * 60 + text.minutes) * 60 : Nat)
  if text.negative then -seconds else seconds

/-- The offset of a session opened at `opened`, by `connectSlotLocked`. -/
def sessionOffset (z : Zone) (opened : Int) : Int := (localTimezoneOffset z opened).seconds

/-- `NOW()` at `sec` in a session opened at `opened`. -/
def sessionNow (z : Zone) (opened sec : Int) : DateTime := sec + sessionOffset z opened

/-- An offset of whole minutes is the offset of the session. -/
theorem sessionOffset_eq {z : Zone} {opened : Int} (hminutes : z.offset opened % 60 = 0)
    (hsize : (z.offset opened).natAbs < 360000) : sessionOffset z opened = z.offset opened := by
  have hhours : (z.offset opened).natAbs / 60 / 60 < 100 := by omega
  have htext : localTimezoneOffset z opened =
      ⟨decide (z.offset opened < 0), (z.offset opened).natAbs / 60 / 60,
        (z.offset opened).natAbs / 60 % 60⟩ := if_pos hhours
  rw [sessionOffset, htext, OffsetText.seconds]
  dsimp only
  by_cases hneg : z.offset opened < 0
  · rw [decide_eq_true hneg, if_pos rfl]
    omega
  · rw [decide_eq_false hneg, if_neg Bool.false_ne_true]
    omega

/-! ## The connection pool -/

/-- `slots_`: for each slot the time at which its connection was opened, if it
has one.  The pool is seen at time `clock`. -/
structure ConnectionPool where
  clock : Int
  nextSlot : Nat := 0
  slots : List (Option Int)

namespace ConnectionPool

inductive Action where
  | tick (seconds : Nat)
  /-- The connection of a slot is closed. -/
  | lose (slot : Nat)
  /-- `acquireConnection`; the flag says whether a new connection can be
  opened. -/
  | acquire (connects : Bool)

/-- `ensureConnected` on the slot whose turn it is: the connection of the
lease. -/
def lease (pool : ConnectionPool) (connects : Bool) : Option Int :=
  match pool.slots[pool.nextSlot % pool.slots.length]? with
  | none => none
  | some (some opened) => some opened
  | some none => if connects then some pool.clock else none

def step (pool : ConnectionPool) : Action → Option ConnectionPool
  | .tick seconds => some { pool with clock := pool.clock + seconds }
  | .lose slot => some { pool with slots := pool.slots.set slot none }
  | .acquire connects =>
      some { pool with
        nextSlot := (pool.nextSlot + 1) % 2 ^ 64
        slots := pool.slots.set (pool.nextSlot % pool.slots.length) (pool.lease connects) }

/-- No connection was opened in the future. -/
def Opened (pool : ConnectionPool) : Prop :=
  ∀ opened, some opened ∈ pool.slots → opened ≤ pool.clock

theorem Opened.lease {pool : ConnectionPool} (h : pool.Opened) {connects : Bool} {opened : Int}
    (hlease : pool.lease connects = some opened) : opened ≤ pool.clock := by
  unfold ConnectionPool.lease at hlease
  split at hlease
  · cases hlease
  · rename_i hslot
    cases hlease
    exact h opened (List.mem_of_getElem? hslot)
  · split at hlease
    · cases hlease
      exact Int.le_refl _
    · cases hlease

theorem Opened.step {pool pool' : ConnectionPool} {action : Action} (h : pool.Opened)
    (hstep : pool.step action = some pool') : pool'.Opened := by
  cases action with
  | tick seconds =>
      cases hstep
      intro opened hmem
      have hle := h opened hmem
      change opened ≤ pool.clock + seconds
      omega
  | lose slot =>
      cases hstep
      intro opened hmem
      rcases List.mem_or_eq_of_mem_set hmem with hmem | hnone
      · exact h opened hmem
      · cases hnone
  | acquire connects =>
      cases hstep
      intro opened hmem
      rcases List.mem_or_eq_of_mem_set hmem with hmem | hlease
      · exact h opened hmem
      · exact h.lease hlease.symm

/-- Every statement of a run is executed in a session that was opened before. -/
theorem lease_of_run {pool pool' : ConnectionPool}
    {trace : List (Transition ConnectionPool Action)} (hrun : Run step pool trace pool')
    (hinit : pool.Opened) {τ : Transition ConnectionPool Action} (hτ : τ ∈ trace)
    {connects : Bool} {opened : Int} (hlease : τ.pre.lease connects = some opened) :
    opened ≤ τ.pre.clock :=
  Opened.lease (hrun.invariant_pre hτ hinit fun _ _ hstep h => h.step hstep) hlease

end ConnectionPool

/-! ## Comparing local times -/

section Row

variable {z : Zone} {opened scheduled sec : Int} {row : TaskRow}

/-- The condition of `getDueTasks`. -/
theorem due_iff (hstatus : row.status = taskScheduled)
    (hnext : row.nextRunAt = some (z.localtime scheduled)) :
    TaskTable.isDue (sessionNow z opened sec) row = true ↔
      scheduled + z.offset scheduled ≤ sec + sessionOffset z opened := by
  rw [TaskTable.isDue, hstatus, hnext]
  simp only [beq_self_eq_true, Bool.true_and, Option.all_some, decide_eq_true_eq]
  exact Iff.rfl

/-- `claimTaskExecution` with the time that is in the row. -/
theorem claim_iff (hstatus : row.status = taskScheduled)
    (hnext : row.nextRunAt = some (z.localtime scheduled)) (executionId nodeId : String) :
    (Statement.claimTaskExecution row.id executionId nodeId taskScheduled row.nextRunAt).affected
        (sessionNow z opened sec) (some row) = true ↔
      scheduled + z.offset scheduled ≤ sec + sessionOffset z opened := by
  rw [claim_affected .scheduled]
  constructor
  · rintro ⟨r, hr, hguard⟩
    cases hr
    exact ((claim_guard.mp hguard).2 _ hnext).2
  · intro hle
    refine ⟨row, rfl, claim_guard.mpr ⟨hstatus, ?_⟩⟩
    intro v hv
    rw [hnext] at hv
    cases hv
    exact ⟨hnext, hle⟩

/-- A task that `getDueTasks` returns has a due row. -/
theorem isDue_of_mem_getDueTasks {t : TaskTable} {now : DateTime} {limit : Nat}
    (hrow : row ∈ t.rows) (h : taskFromResult row ∈ t.getDueTasks now limit) :
    TaskTable.isDue now row = true := by
  obtain ⟨row', hfind, hdue, -⟩ := TaskTable.of_mem_getDueTasks h
  have hown : t.find? row.id = some row := KeyedTable.find?_of_mem hrow
  have hsame : some row' = some row := hfind.symm.trans hown
  cases hsame
  exact hdue

end Row

/-- What is scheduled at `scheduled` runs on time in a session opened at
`opened`: it is neither returned nor claimed before its instant, and from then on
it satisfies both conditions. -/
def RunsOnTime (z : Zone) (opened scheduled : Int) : Prop :=
  ∀ (sec : Int) (row : TaskRow), opened ≤ sec → row.status = taskScheduled →
    row.nextRunAt = some (z.localtime scheduled) →
    (∀ (t : TaskTable) (limit : Nat), row ∈ t.rows →
      taskFromResult row ∈ t.getDueTasks (sessionNow z opened sec) limit → scheduled ≤ sec) ∧
    (∀ executionId nodeId,
      (Statement.claimTaskExecution row.id executionId nodeId taskScheduled row.nextRunAt).affected
        (sessionNow z opened sec) (some row) = true → scheduled ≤ sec) ∧
    (scheduled ≤ sec → TaskTable.isDue (sessionNow z opened sec) row = true ∧
      ∀ executionId nodeId,
        (Statement.claimTaskExecution row.id executionId nodeId taskScheduled
          row.nextRunAt).affected (sessionNow z opened sec) (some row) = true)

/-- Two clocks that show the same time at every moment from `c` on, as far as
`n` is concerned. -/
theorem shifted_le_iff {a b c n : Int} :
    (∀ t, c ≤ t → (n + a ≤ t + b ↔ n ≤ t)) ↔ a = b ∨ n ≤ c ∧ n + a ≤ c + b := by
  constructor
  · intro h
    -- The first moments at which the one and the other can show `n`.
    have hearly := h (max c (n + a - b)) (Int.le_max_left _ _)
    have hlate := h (max c n) (Int.le_max_left _ _)
    omega
  · rintro (rfl | ⟨hpast, hshown⟩) t ht <;> omega

/-- A row for a task that is scheduled. -/
def scheduledRow (z : Zone) (scheduled : Int) : TaskRow where
  id := "task-1"
  cronExpr := "0 * * * *"
  params := ""
  handler := "Echo"
  status := taskScheduled
  nextRunAt := some (z.localtime scheduled)
  lastRunAt := none
  retryCount := 0
  maxRetries := 3
  currentExecutionId := none
  runningNode := none
  startedAt := none
  createdAt := 0

theorem runsOnTime_iff (z : Zone) (opened scheduled : Int) :
    RunsOnTime z opened scheduled ↔
      z.offset scheduled = sessionOffset z opened ∨
        scheduled ≤ opened ∧
          scheduled + z.offset scheduled ≤ opened + sessionOffset z opened := by
  rw [← shifted_le_iff]
  constructor
  · intro h sec hsec
    obtain ⟨-, hclaimed, hdue⟩ := h sec (scheduledRow z scheduled) hsec rfl rfl
    have hclaim := @claim_iff z opened scheduled sec (scheduledRow z scheduled) rfl rfl "e" "n"
    constructor
    · intro hle
      exact hclaimed "e" "n" (hclaim.mpr hle)
    · intro hle
      exact hclaim.mp ((hdue hle).2 "e" "n")
  · intro h sec row hsec hstatus hnext
    refine ⟨?_, ?_, ?_⟩
    · intro t limit hrow hmem
      exact (h sec hsec).mp ((due_iff hstatus hnext).mp (isDue_of_mem_getDueTasks hrow hmem))
    · intro executionId nodeId haffected
      exact (h sec hsec).mp ((claim_iff hstatus hnext executionId nodeId).mp haffected)
    · intro hle
      have hshown := (h sec hsec).mpr hle
      exact ⟨(due_iff hstatus hnext).mpr hshown, fun executionId nodeId =>
        (claim_iff hstatus hnext executionId nodeId).mpr hshown⟩

/-- In whatever zone: in a session opened at `opened`, what is scheduled at
`scheduled` runs on time if and only if the zone has the offset of the session at
that instant, or the instant is past for the clock and for the session when the
session is opened.  The offset of the session is that of the zone at `opened` if
that is in whole minutes, and every statement of the pool is executed in a
session opened before it. -/
theorem due_in_mysql_iff (z : Zone) :
    (∀ opened scheduled, RunsOnTime z opened scheduled ↔
      z.offset scheduled = sessionOffset z opened ∨
        scheduled ≤ opened ∧
          scheduled + z.offset scheduled ≤ opened + sessionOffset z opened) ∧
    (∀ opened, z.offset opened % 60 = 0 → (z.offset opened).natAbs < 360000 →
      sessionOffset z opened = z.offset opened) ∧
    ∀ (pool pool' : ConnectionPool) (trace : List (Transition ConnectionPool _)),
      Run ConnectionPool.step pool trace pool' → pool.Opened →
      ∀ τ ∈ trace, ∀ connects opened, τ.pre.lease connects = some opened → opened ≤ τ.pre.clock :=
  ⟨runsOnTime_iff z, fun _ => sessionOffset_eq, fun _ _ _ hrun hinit _ hτ _ _ hlease =>
    ConnectionPool.lease_of_run hrun hinit hτ hlease⟩

/-- A pool of two slots on New Year's Day 2024. -/
def twoSlots : ConnectionPool where
  clock := 1704067200
  slots := [none, none]

/-- A connection opened in winter, and noon UTC on 15 January 2024. -/
theorem due_in_mysql_iff_winter :
    sessionOffset centralEurope 1704067200 = 3600 ∧
    RunsOnTime centralEurope 1704067200 1705320000 ∧
    twoSlots.lease true = some 1704067200 ∧ 1704067200 ≤ twoSlots.clock := by
  obtain ⟨hiff, hoffset, hpool⟩ := due_in_mysql_iff centralEurope
  have hexec : (execute ConnectionPool.step twoSlots [.acquire true]).isSome = true := rfl
  obtain ⟨pool', hrun⟩ := exists_run_of_isSome hexec
  have hsession : sessionOffset centralEurope 1704067200 = 3600 :=
    (hoffset 1704067200 (by decide) (by decide)).trans (by decide)
  refine ⟨hsession, (hiff 1704067200 1705320000).mpr (.inl ?_), rfl, ?_⟩
  · rw [hsession]
    decide
  · exact hpool twoSlots pool' _ hrun (by simp [ConnectionPool.Opened, twoSlots]) _ (.head _)
      true 1704067200 rfl

/-- A task scheduled at noon UTC on 15 July 2024 is not due half an hour later
for a connection opened in winter.  One scheduled at noon UTC on 1 December 2024
is due, and can be claimed, half an hour before for a connection opened in
summer. -/
theorem due_across_offset_change :
    (∃ row : TaskRow, row.status = taskScheduled ∧
      row.nextRunAt = some (centralEurope.localtime 1721044800) ∧
      TaskTable.isDue (sessionNow centralEurope 1704067200 (1721044800 + 1800)) row = false) ∧
    ∃ row : TaskRow, row.status = taskScheduled ∧
      row.nextRunAt = some (centralEurope.localtime 1733054400) ∧
      TaskTable.isDue (sessionNow centralEurope 1719792000 (1733054400 - 1800)) row = true ∧
      (Statement.claimTaskExecution row.id "e" "n" taskScheduled row.nextRunAt).affected
        (sessionNow centralEurope 1719792000 (1733054400 - 1800)) (some row) = true :=
  ⟨⟨scheduledRow centralEurope 1721044800, rfl, rfl, by decide⟩,
    scheduledRow centralEurope 1733054400, rfl, rfl, by decide, by decide⟩

end Corpcron
