import Corpcron.MySQL.TaskStore

/-!
# The execution columns of a task row

A row is `RUNNING` exactly while its three execution columns are set.  Four of
the nine statements write `status` without looking at what they write, and two
of them leave the execution columns alone, so the invariant is not a property
of the statements as such.  It holds because every caller passes a status that
is `DISABLED` or `SCHEDULED`; `Statement.Issued` records that obligation of the
callers, and `Statement.applyRow_valid` is the step lemma.

`runningExecution` reads the execution that currently owns a row.  What each
kind of statement does to it is collected here once, and the later modules use
these lemmas instead of the `WHERE` and `SET` clauses.
-/

namespace Corpcron

/-- A status that callers may write. -/
def IdleStatus (status : Int) : Prop :=
  status = taskDisabled ∨ status = taskScheduled

theorem IdleStatus.disabled : IdleStatus taskDisabled := Or.inl rfl

theorem IdleStatus.scheduled : IdleStatus taskScheduled := Or.inr rfl

theorem IdleStatus.ne_running {status : Int} (h : IdleStatus status) :
    status ≠ taskRunning := by
  rcases h with h | h <;> rw [h] <;> decide

/-- The status column holds one of the three codes and the execution columns
are set exactly in state `RUNNING`. -/
structure RowValid (row : TaskRow) : Prop where
  status_code : row.status = taskDisabled ∨ row.status = taskScheduled ∨
    row.status = taskRunning
  running_set : row.status = taskRunning →
    row.currentExecutionId ≠ none ∧ row.runningNode ≠ none ∧ row.startedAt ≠ none
  idle_null : row.status ≠ taskRunning →
    row.currentExecutionId = none ∧ row.runningNode = none ∧ row.startedAt = none

/-- The status arguments the callers of `MySQLClient` pass. -/
def Statement.Issued : Statement → Prop
  | .addTask task => IdleStatus task.status
  | .updateTaskDefinition task => IdleStatus task.status
  | .updateTaskRuntime _ status _ _ _ => IdleStatus status
  | .claimTaskExecution _ _ _ expectedStatus _ => IdleStatus expectedStatus
  | .completeTaskExecution _ _ status _ _ _ => IdleStatus status
  | .updateTaskSchedule _ _ _ _ => True
  | .deleteTask _ => True
  | .recoverTaskExecution _ _ => True
  | .cancelTask _ => True

variable {now : DateTime} {stmt : Statement} {r : TaskRow} {row : Option TaskRow} {id e : String}

/-- A row without execution columns is valid as soon as its status is idle. -/
theorem rowValid_of_idle {row : TaskRow} (hstatus : IdleStatus row.status)
    (hexec : row.currentExecutionId = none) (hnode : row.runningNode = none)
    (hstarted : row.startedAt = none) : RowValid row where
  status_code := by
    rcases hstatus with h | h
    · exact Or.inl h
    · exact Or.inr (Or.inl h)
  running_set := fun h => absurd h hstatus.ne_running
  idle_null := fun _ => ⟨hexec, hnode, hstarted⟩

/-- A statement whose guard accepts a valid row produces a valid row. -/
theorem Statement.assign_valid {row : TaskRow} (hissued : stmt.Issued) (hvalid : RowValid row)
    (hguard : stmt.guard now row = true) :
    RowValid (stmt.assign now row) := by
  cases stmt with
  | addTask task => exact hvalid
  | updateTaskDefinition task =>
      have hidle := hvalid.idle_null (by simpa [Statement.guard] using hguard)
      exact rowValid_of_idle hissued hidle.1 hidle.2.1 hidle.2.2
  | updateTaskSchedule id next last retry =>
      exact ⟨hvalid.status_code, hvalid.running_set, hvalid.idle_null⟩
  | updateTaskRuntime id status next last retry =>
      exact rowValid_of_idle hissued rfl rfl rfl
  | deleteTask id => exact hvalid
  | claimTaskExecution id executionId nodeId expectedStatus expectedNext =>
      refine ⟨Or.inr (Or.inr rfl), fun _ => ⟨?_, ?_, ?_⟩, fun h => absurd rfl h⟩ <;>
        simp [Statement.assign]
  | recoverTaskExecution id executionId => exact rowValid_of_idle .scheduled rfl rfl rfl
  | completeTaskExecution id executionId status next last retry =>
      exact rowValid_of_idle hissued rfl rfl rfl
  | cancelTask id => exact rowValid_of_idle .disabled rfl rfl rfl

/-- Every row of an optional row is valid. -/
def RowsValid (row : Option TaskRow) : Prop := ∀ r, row = some r → RowValid r

/-- One statement keeps the row invariant. -/
theorem Statement.applyRow_valid (hissued : stmt.Issued) (hvalid : RowsValid row) :
    RowsValid (stmt.applyRow now row) := by
  intro r hr
  cases row with
  | none =>
      cases stmt <;> simp [Statement.applyRow] at hr
      subst hr
      exact rowValid_of_idle hissued rfl rfl rfl
  | some row =>
      have hrow := hvalid row rfl
      cases hguard : stmt.guard now row with
      | false =>
          cases stmt <;> simp [Statement.applyRow, hguard] at hr <;> exact hr ▸ hrow
      | true =>
          have hassign := Statement.assign_valid hissued hrow hguard
          cases stmt <;> simp [Statement.applyRow, hguard] at hr <;> exact hr ▸ hassign

/-! ## The execution that owns a row -/

/-- The execution id under which a row is `RUNNING`. -/
def runningExecution (row : Option TaskRow) : Option String :=
  row.bind fun r => if r.status = taskRunning then r.currentExecutionId else none

@[simp] theorem runningExecution_none : runningExecution none = none := rfl

theorem runningExecution_eq_some :
    runningExecution row = some e ↔
      ∃ r, row = some r ∧ r.status = taskRunning ∧ r.currentExecutionId = some e := by
  cases row with
  | none => simp
  | some r =>
      by_cases hrun : r.status = taskRunning <;> simp [runningExecution, hrun]

theorem runningExecution_of_idle (h : r.status ≠ taskRunning) :
    runningExecution (some r) = none := by
  simp [runningExecution, h]

/-- A valid running row has an owner. -/
theorem exists_runningExecution (hvalid : RowValid r) (hrun : r.status = taskRunning) :
    ∃ e, runningExecution (some r) = some e := by
  obtain ⟨e, he⟩ := Option.ne_none_iff_exists'.mp (hvalid.running_set hrun).1
  exact ⟨e, by simp [runningExecution, hrun, he]⟩

/-- Whether a statement may end a running execution. -/
def Statement.mayEnd : Statement → Bool
  | .recoverTaskExecution _ _ => true
  | .completeTaskExecution _ _ _ _ _ _ => true
  | .cancelTask _ => true
  | _ => false

/-- While a row is `RUNNING`, a statement that is not meant to end an execution
does not match it. -/
theorem Statement.guard_running (hissued : stmt.Issued) (hrun : r.status = taskRunning)
    (hend : stmt.mayEnd = false) :
    stmt.guard now r = false := by
  cases stmt with
  | addTask task => rfl
  | updateTaskDefinition task => simp [Statement.guard, hrun]
  | updateTaskSchedule id next last retry => simp [Statement.guard, hrun]
  | updateTaskRuntime id status next last retry => simp [Statement.guard, hrun]
  | deleteTask id => simp [Statement.guard, hrun]
  | claimTaskExecution id executionId nodeId expectedStatus expectedNext =>
      have hne : taskRunning ≠ expectedStatus := fun h => hissued.ne_running h.symm
      cases expectedNext <;> simp [Statement.guard, hrun, hne]
  | recoverTaskExecution id executionId => simp [Statement.mayEnd] at hend
  | completeTaskExecution id executionId status next last retry =>
      simp [Statement.mayEnd] at hend
  | cancelTask id => simp [Statement.mayEnd] at hend

/-- A statement whose guard rejects the row leaves it as it is. -/
theorem Statement.applyRow_of_guard_false (hguard : stmt.guard now r = false) :
    stmt.applyRow now (some r) = some r := by
  cases stmt <;> simp [Statement.applyRow, hguard]

/-- The statements that are an `UPDATE`. -/
def Statement.isUpdate : Statement → Bool
  | .addTask _ => false
  | .deleteTask _ => false
  | _ => true

/-- An `UPDATE` whose guard accepts the row assigns it. -/
theorem Statement.applyRow_of_guard (hupdate : stmt.isUpdate = true)
    (hguard : stmt.guard now r = true) :
    stmt.applyRow now (some r) = some (stmt.assign now r) := by
  cases stmt <;> simp [Statement.isUpdate] at hupdate <;> simp [Statement.applyRow, hguard]

/-- An `UPDATE` finds nothing to change where there is no row. -/
theorem Statement.applyRow_none (hupdate : stmt.isUpdate = true) :
    stmt.applyRow now none = none := by
  cases stmt <;> simp [Statement.isUpdate] at hupdate <;> rfl

/-- An `UPDATE` that changes something has found a row that its guard accepts. -/
theorem Statement.row_of_affected (hupdate : stmt.isUpdate = true)
    (h : stmt.affected now row = true) :
    ∃ r, row = some r ∧ stmt.guard now r = true ∧
      stmt.applyRow now row = some (stmt.assign now r) := by
  cases row with
  | none => simp [Statement.affected, Statement.applyRow_none hupdate] at h
  | some r =>
      cases hguard : stmt.guard now r with
      | false => simp [Statement.affected, Statement.applyRow_of_guard_false hguard] at h
      | true => exact ⟨r, rfl, hguard, Statement.applyRow_of_guard hupdate hguard⟩

/-- A `DELETE` that changes something removes the row. -/
theorem delete_affected (h : Statement.affected now (.deleteTask id) row = true) :
    Statement.applyRow now (.deleteTask id) row = none := by
  cases row with
  | none => rfl
  | some r =>
      cases hguard : Statement.guard now (.deleteTask id) r with
      | false => simp [Statement.affected, Statement.applyRow_of_guard_false hguard] at h
      | true => simp [Statement.applyRow, hguard]

/-- An `UPDATE` changes a row that its guard accepts, unless the row already
holds what it writes. -/
theorem Statement.affected_some (hupdate : stmt.isUpdate = true) :
    stmt.affected now (some r) = true ↔ stmt.guard now r = true ∧ stmt.assign now r ≠ r := by
  cases hguard : stmt.guard now r with
  | false => simp [Statement.affected, Statement.applyRow_of_guard_false hguard]
  | true => simp [Statement.affected, Statement.applyRow_of_guard hupdate hguard]

/-- An `UPDATE` that writes another status changes the row. -/
theorem Statement.affected_of_status (hupdate : stmt.isUpdate = true)
    (hguard : stmt.guard now r = true) (hstatus : (stmt.assign now r).status ≠ r.status) :
    stmt.affected now (some r) = true :=
  (Statement.affected_some hupdate).mpr
    ⟨hguard, fun heq => hstatus (congrArg TaskRow.status heq)⟩

/-- The frame of a running row: no definition, schedule or runtime update, no
delete, no insert and no second claim changes it. -/
theorem Statement.applyRow_running (hissued : stmt.Issued) (hrun : r.status = taskRunning)
    (hend : stmt.mayEnd = false) :
    stmt.applyRow now (some r) = some r :=
  Statement.applyRow_of_guard_false (Statement.guard_running hissued hrun hend)

/-- A row that is `RUNNING` after a statement was already the same, or the
statement is a claim that accepted it. -/
theorem Statement.running_after {r' : TaskRow} (hissued : stmt.Issued)
    (hafter : stmt.applyRow now row = some r') (hrun : r'.status = taskRunning) :
    row = some r' ∨ ∃ id e node expected next r,
      stmt = .claimTaskExecution id e node expected next ∧ row = some r ∧
        stmt.guard now r = true ∧ r' = stmt.assign now r := by
  cases row with
  | none =>
      cases stmt <;> simp [Statement.applyRow] at hafter
      subst hafter
      exact absurd hrun hissued.ne_running
  | some r =>
      cases hguard : stmt.guard now r with
      | false =>
          rw [Statement.applyRow_of_guard_false hguard] at hafter
          exact Or.inl hafter
      | true =>
          -- Every other statement leaves an idle row, or has refused a running one.
          have hassign : ∀ hupdate : stmt.isUpdate = true, r' = stmt.assign now r := by
            intro hupdate
            rw [Statement.applyRow_of_guard hupdate hguard, Option.some.injEq] at hafter
            exact hafter.symm
          cases stmt with
          | claimTaskExecution id e node expected next =>
              exact Or.inr ⟨id, e, node, expected, next, r, rfl, rfl, hguard, hassign rfl⟩
          | deleteTask id => simp [Statement.applyRow, hguard] at hafter
          | addTask task => simp [Statement.guard] at hguard
          | updateTaskSchedule id next last retry =>
              rw [hassign rfl] at hrun
              simp only [Statement.assign] at hrun
              simp [Statement.guard, hrun] at hguard
          | updateTaskDefinition task =>
              rw [hassign rfl] at hrun
              exact absurd hrun hissued.ne_running
          | updateTaskRuntime id status next last retry =>
              rw [hassign rfl] at hrun
              exact absurd hrun hissued.ne_running
          | completeTaskExecution id e status next last retry =>
              rw [hassign rfl] at hrun
              exact absurd hrun hissued.ne_running
          | recoverTaskExecution id e =>
              rw [hassign rfl] at hrun
              exact absurd hrun IdleStatus.scheduled.ne_running
          | cancelTask id =>
              rw [hassign rfl] at hrun
              exact absurd hrun IdleStatus.disabled.ne_running

/-- What a claim's guard says about the row. -/
theorem claim_guard {node : String} {expected : Int} {expectedNext : Option DateTime} :
    Statement.guard now (.claimTaskExecution id e node expected expectedNext) r = true ↔
      r.status = expected ∧
        ∀ v, expectedNext = some v → r.nextRunAt = some v ∧ v ≤ now := by
  cases expectedNext with
  | none => simp [Statement.guard]
  | some v => simp [Statement.guard, and_assoc]

/-- A claim changes the row exactly when its guard accepts it. -/
theorem claim_affected {node : String} {expected : Int} {expectedNext : Option DateTime}
    (hidle : IdleStatus expected) :
    Statement.affected now (.claimTaskExecution id e node expected expectedNext) row = true ↔
      ∃ r, row = some r ∧
        Statement.guard now (.claimTaskExecution id e node expected expectedNext) r = true := by
  constructor
  · intro h
    obtain ⟨r, hr, hguard, -⟩ := Statement.row_of_affected rfl h
    exact ⟨r, hr, hguard⟩
  · rintro ⟨r, rfl, hguard⟩
    apply Statement.affected_of_status rfl hguard
    rw [(claim_guard.mp hguard).1]
    exact fun hrun => hidle.ne_running hrun.symm

/-- What a completion's guard says about the row. -/
theorem complete_guard {status : Int} {next last : Option DateTime} {retry : Int} :
    Statement.guard now (.completeTaskExecution id e status next last retry) r = true ↔
      r.status = taskRunning ∧ r.currentExecutionId = some e := by
  simp [Statement.guard, and_comm]

/-- A completion changes the row exactly when the row runs under its execution
id. -/
theorem complete_affected {status : Int} {next last : Option DateTime} {retry : Int}
    (hidle : IdleStatus status) :
    Statement.affected now (.completeTaskExecution id e status next last retry) row = true ↔
      runningExecution row = some e := by
  rw [runningExecution_eq_some]
  constructor
  · intro h
    obtain ⟨r, hr, hguard, -⟩ := Statement.row_of_affected rfl h
    exact ⟨r, hr, complete_guard.mp hguard⟩
  · rintro ⟨r, rfl, hrun, hexec⟩
    apply Statement.affected_of_status rfl (complete_guard.mpr ⟨hrun, hexec⟩)
    rw [hrun]
    exact hidle.ne_running

/-- What a recovery's guard says about a valid row: the branch for a missing
execution id never matches. -/
theorem recover_guard (hvalid : RowValid r) :
    Statement.guard now (.recoverTaskExecution id e) r = true ↔
      r.status = taskRunning ∧ r.currentExecutionId = some e := by
  constructor
  · intro h
    have hmatch : r.status = taskRunning ∧ (r.currentExecutionId = some e ∨
        (r.currentExecutionId = none ∧ e = "")) := by
      simpa [Statement.guard] using h
    rcases hmatch.2 with hexec | ⟨hnone, -⟩
    · exact ⟨hmatch.1, hexec⟩
    · exact absurd hnone (hvalid.running_set hmatch.1).1
  · rintro ⟨hrun, hexec⟩
    simp [Statement.guard, hrun, hexec]

/-- A recovery changes the row exactly when its guard accepts it. -/
theorem recover_affected_iff_guard :
    Statement.affected now (.recoverTaskExecution id e) row = true ↔
      ∃ r, row = some r ∧ Statement.guard now (.recoverTaskExecution id e) r = true := by
  constructor
  · intro h
    obtain ⟨r, hr, hguard, -⟩ := Statement.row_of_affected rfl h
    exact ⟨r, hr, hguard⟩
  · rintro ⟨r, rfl, hguard⟩
    apply Statement.affected_of_status rfl hguard
    have hrun : r.status = taskRunning := by
      simp only [Statement.guard, Bool.and_eq_true, beq_iff_eq] at hguard
      exact hguard.1
    rw [hrun]
    exact IdleStatus.scheduled.ne_running

/-- A recovery changes a valid row exactly when the row runs under its
execution id. -/
theorem recover_affected (hvalid : RowsValid row) :
    Statement.affected now (.recoverTaskExecution id e) row = true ↔
      runningExecution row = some e := by
  rw [recover_affected_iff_guard, runningExecution_eq_some]
  apply exists_congr
  intro r
  apply and_congr_right
  intro hr
  exact recover_guard (hvalid r hr)

end Corpcron
