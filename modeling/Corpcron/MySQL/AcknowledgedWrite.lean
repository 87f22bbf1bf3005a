import Corpcron.MySQL.ExecutionFencing

/-!
# Acknowledged writes

`updateTaskDefinition`, `updateTaskSchedule` and `updateTaskRuntime` execute an
`UPDATE ... WHERE status<>RUNNING`.  When it changes no row, the row may already
hold the values, or it may be `RUNNING`, or there may be none; the call tells
these apart by a second statement, `task_exists_and_is_not_running`, and other
clients may execute statements between the two.

`acknowledged_write_iff` says for which rows this is sound.  A row that is
`RUNNING` at the `UPDATE` can be idle again at the query, and then the call
returns true for a write that was dropped.
-/

namespace Corpcron

open Lib

/-- The statements of the three calls. -/
def Statement.isEdit : Statement → Bool
  | .updateTaskDefinition _ => true
  | .updateTaskSchedule _ _ _ _ => true
  | .updateTaskRuntime _ _ _ _ _ => true
  | _ => false

/-- Whether a statement can create a row. -/
def Statement.isInsert : Statement → Bool
  | .addTask _ => true
  | _ => false

/-- What the call returns: `t` is the table at its `UPDATE` and `t'` the table at
its query, which is made only when the `UPDATE` changes nothing. -/
def editReturns (now : DateTime) (stmt : Statement) (t t' : TaskTable) : Bool :=
  stmt.affected now (t.find? stmt.taskId) || t'.taskExistsAndIsNotRunning stmt.taskId

/-- The tables during the call, when the statements `others` are executed between
`UPDATE` and query. -/
def editTables (now : DateTime) (stmt : Statement) (t : TaskTable)
    (others : List TableTransition) : List TaskTable :=
  t :: t.execute now stmt ::
    if stmt.affected now (t.find? stmt.taskId) then [] else others.map Transition.post

/-- The row holds exactly the values the statement writes. -/
def Statement.Held (now : DateTime) (stmt : Statement) (t : TaskTable) : Prop :=
  ∃ row, t.find? stmt.taskId = some row ∧ stmt.assign now row = row

instance (now : DateTime) (stmt : Statement) (t : TaskTable) : Decidable (stmt.Held now t) :=
  decidable_of_iff
    ((t.find? stmt.taskId).any (fun row => decide (stmt.assign now row = row)) = true)
    (by simp [Statement.Held, Option.any_eq_true])

/-! ## What the `UPDATE` does -/

theorem Statement.isUpdate_of_isEdit {stmt : Statement} (h : stmt.isEdit = true) :
    stmt.isUpdate = true := by
  cases stmt <;> first | rfl | cases h

/-- An edit matches exactly the rows that are not `RUNNING`. -/
theorem Statement.guard_of_isEdit {now : DateTime} {stmt : Statement} {row : TaskRow}
    (h : stmt.isEdit = true) : stmt.guard now row = true ↔ row.status ≠ taskRunning := by
  cases stmt with
  | updateTaskDefinition task => simp [Statement.guard]
  | updateTaskSchedule id next last retry => simp [Statement.guard]
  | updateTaskRuntime id status next last retry => simp [Statement.guard]
  | _ => cases h

/-- Writing the same values twice is writing them once. -/
theorem Statement.assign_assign {now : DateTime} (stmt : Statement) (row : TaskRow) :
    stmt.assign now (stmt.assign now row) = stmt.assign now row := by
  cases stmt <;> rfl

theorem find?_execute_self (t : TaskTable) (now : DateTime) (stmt : Statement) :
    (t.execute now stmt).find? stmt.taskId = stmt.applyRow now (t.find? stmt.taskId) := by
  rw [TaskTable.find?_execute, if_pos rfl]

/-- A row that is not `RUNNING` holds the values right after the `UPDATE`. -/
theorem held_of_idle {now : DateTime} {stmt : Statement} {t : TaskTable} {row : TaskRow}
    (hedit : stmt.isEdit = true) (hrow : t.find? stmt.taskId = some row)
    (hidle : row.status ≠ taskRunning) : stmt.Held now (t.execute now stmt) := by
  refine ⟨stmt.assign now row, ?_, stmt.assign_assign row⟩
  rw [find?_execute_self, hrow]
  exact Statement.applyRow_of_guard (stmt.isUpdate_of_isEdit hedit)
    ((stmt.guard_of_isEdit hedit).mpr hidle)

/-- The `UPDATE` leaves a `RUNNING` row as it is. -/
theorem execute_of_running (now : DateTime) {stmt : Statement} {t : TaskTable} {row : TaskRow}
    (hedit : stmt.isEdit = true) (hrow : t.find? stmt.taskId = some row)
    (hrun : row.status = taskRunning) :
    stmt.affected now (t.find? stmt.taskId) = false ∧
      (t.execute now stmt).find? stmt.taskId = some row := by
  have hguard : stmt.guard now row = false := by
    rw [Bool.eq_false_iff]
    intro hmatch
    exact (stmt.guard_of_isEdit hedit).mp hmatch hrun
  have hsame := Statement.applyRow_of_guard_false hguard
  rw [find?_execute_self, Statement.affected, hrow, hsame]
  simp

/-! ## What others do between the two statements -/

theorem find?_tableStep_of_none {id : String} {t t' : TaskTable} {issue : Issue}
    (hstep : tableStep t issue = some t') (hinsert : issue.stmt.isInsert = false)
    (hnone : t.find? id = none) : t'.find? id = none := by
  cases hstep
  rw [TaskTable.find?_execute, hnone]
  split
  · cases hstmt : issue.stmt <;> simp [hstmt, Statement.isInsert] at hinsert <;> rfl
  · rfl

/-- Without an `INSERT` a task that does not exist stays so. -/
theorem find?_of_none {id : String} {t t' : TaskTable} {others : List TableTransition}
    (hrun : Run tableStep t others t')
    (hinsert : ∀ τ ∈ others, τ.action.stmt.isInsert = false) (hnone : t.find? id = none) :
    t'.find? id = none := by
  apply hrun.invariant (P := fun t => t.find? id = none) hnone
  intro τ hτ hstep
  exact find?_tableStep_of_none hstep (hinsert τ hτ)

/-- A running execution can be ended by a cancel and by a recovery, and these
leave different rows; a row that does not hold the values of an edit is left
without them by one of the two. -/
theorem exists_ending {now : DateTime} {stmt : Statement} {row : TaskRow}
    (hedit : stmt.isEdit = true) (hrun : row.status = taskRunning)
    (hheld : stmt.assign now row ≠ row) :
    ∃ ending : Statement, ending.taskId = stmt.taskId ∧ ending.isInsert = false ∧
      ending.isUpdate = true ∧ ending.guard now row = true ∧
      (ending.assign now row).status ≠ taskRunning ∧
      stmt.assign now (ending.assign now row) ≠ ending.assign now row := by
  have hcancel : (Statement.cancelTask stmt.taskId).guard now row = true := rfl
  have hrecover : (Statement.recoverTaskExecution stmt.taskId
      (row.currentExecutionId.getD "")).guard now row = true := by
    cases hexec : row.currentExecutionId <;> simp [Statement.guard, hrun, hexec]
  by_cases hone : stmt.assign now ((Statement.cancelTask stmt.taskId).assign now row) =
      (Statement.cancelTask stmt.taskId).assign now row
  · -- The canceled row holds the values, so the recovered one has another status.
    refine ⟨.recoverTaskExecution stmt.taskId (row.currentExecutionId.getD ""), rfl, rfl, rfl,
      hrecover, IdleStatus.scheduled.ne_running, ?_⟩
    intro hother
    have hone' := congrArg TaskRow.status hone
    have hother' := congrArg TaskRow.status hother
    cases stmt with
    | updateTaskDefinition task =>
        simp only [Statement.assign] at hone' hother'
        rw [hone'] at hother'
        exact absurd hother' (by decide)
    | updateTaskRuntime id status next last retry =>
        simp only [Statement.assign] at hone' hother'
        rw [hone'] at hother'
        exact absurd hother' (by decide)
    | updateTaskSchedule id next last retry =>
        -- The schedule is written by neither of the two.
        have hsame : next = row.nextRunAt ∧ last = row.lastRunAt ∧ retry = row.retryCount := by
          simpa [Statement.assign] using hone
        obtain ⟨rfl, rfl, rfl⟩ := hsame
        exact hheld rfl
    | _ => cases hedit
  · exact ⟨.cancelTask stmt.taskId, rfl, rfl, rfl, hcancel, IdleStatus.disabled.ne_running, hone⟩

/-! ## When an acknowledgement can be trusted -/

/-- A call keeps its promise whatever others do between its two statements
exactly when a row that is `RUNNING` at its `UPDATE` holds the values already. -/
theorem acknowledged_write_iff (now : DateTime) (stmt : Statement) (hedit : stmt.isEdit = true)
    (t : TaskTable) :
    (∀ others t', Run tableStep (t.execute now stmt) others t' →
      (∀ τ ∈ others, τ.action.stmt.isInsert = false) →
      (editReturns now stmt t t' = true → ∃ u ∈ editTables now stmt t others, stmt.Held now u) ∧
        (editReturns now stmt t t' = false →
          (t.execute now stmt).find? stmt.taskId = t.find? stmt.taskId)) ↔
      ∀ row, t.find? stmt.taskId = some row → row.status = taskRunning →
        stmt.assign now row = row := by
  constructor
  · intro hall row hrow hrun
    by_contra hheld
    obtain ⟨hquiet, hpost⟩ := execute_of_running now hedit hrow hrun
    obtain ⟨ending, hid, hinsert, hupdate, hguard, hidle, hnot⟩ :=
      exists_ending hedit hrun hheld
    -- The execution ends right after the `UPDATE`.
    have hstep : tableStep (t.execute now stmt) ⟨now, ending⟩ =
        some ((t.execute now stmt).execute now ending) := rfl
    have hafter : ((t.execute now stmt).execute now ending).find? stmt.taskId =
        some (ending.assign now row) := by
      rw [← hid, find?_execute_self, hid, hpost]
      exact Statement.applyRow_of_guard hupdate hguard
    obtain ⟨hprom, -⟩ := hall _ _ (Run.snoc Run.nil hstep) (by simpa using hinsert)
    have hreturns : editReturns now stmt t ((t.execute now stmt).execute now ending) = true := by
      simp [editReturns, hquiet, TaskTable.taskExistsAndIsNotRunning, hafter, hidle]
    obtain ⟨u, hu, r, hr, hassign⟩ := hprom hreturns
    simp only [editTables, hquiet, Bool.false_eq_true, if_false, List.nil_append, List.map_cons,
      List.map_nil, List.mem_cons, List.not_mem_nil, or_false] at hu
    rcases hu with rfl | rfl | rfl
    · rw [hrow] at hr
      cases hr
      exact hheld hassign
    · rw [hpost] at hr
      cases hr
      exact hheld hassign
    · rw [hafter] at hr
      cases hr
      exact hnot hassign
  · intro hcond others t' hrun hinsert
    refine ⟨?_, ?_⟩
    · intro hreturns
      cases hrow : t.find? stmt.taskId with
      | none =>
          -- No row appears, so neither statement finds one.
          have hupdate := stmt.isUpdate_of_isEdit hedit
          have hpost : (t.execute now stmt).find? stmt.taskId = none := by
            rw [find?_execute_self, hrow, Statement.applyRow_none hupdate]
          have hnone := find?_of_none hrun hinsert hpost
          simp [editReturns, hrow, Statement.affected, Statement.applyRow_none hupdate,
            TaskTable.taskExistsAndIsNotRunning, hnone] at hreturns
      | some row =>
          by_cases hstatus : row.status = taskRunning
          · exact ⟨t, .head _, row, hrow, hcond row hrow hstatus⟩
          · exact ⟨_, .tail _ (.head _), held_of_idle hedit hrow hstatus⟩
    · intro hreturns
      simp only [editReturns, Bool.or_eq_false_iff] at hreturns
      rw [find?_execute_self]
      exact applyRow_of_not_affected hreturns.1

/-- A table with one task, scheduled. -/
def editedTable : TaskTable :=
  TaskTable.execute KeyedTable.empty 0
    (.addTask { id := "t", params := "old", status := taskScheduled })

/-- An edit of its parameters. -/
def paramsEdit : Statement :=
  .updateTaskDefinition { id := "t", params := "new", status := taskScheduled }

/-- The task is idle at the `UPDATE` and claimed right after it. -/
theorem acknowledged_write_iff_idle :
    paramsEdit.isEdit = true ∧ ∃ others t',
      Run tableStep (editedTable.execute 6 paramsEdit) others t' ∧
      editReturns 6 paramsEdit editedTable t' = true ∧
      ∃ u ∈ editTables 6 paramsEdit editedTable others, paramsEdit.Held 6 u := by
  have hidle : ∀ row, editedTable.find? paramsEdit.taskId = some row →
      row.status = taskRunning → paramsEdit.assign 6 row = row := by
    intro row hrow hrun
    have hstatus : (editedTable.find? paramsEdit.taskId).map TaskRow.status =
        some taskScheduled := by decide
    rw [hrow, Option.map_some, hrun] at hstatus
    exact absurd (Option.some.inj hstatus) (by decide)
  have hrun : Run tableStep (editedTable.execute 6 paramsEdit)
      (executeTrace tableStep (editedTable.execute 6 paramsEdit)
        [⟨7, .claimTaskExecution "t" "e" "node" taskScheduled none⟩]) _ :=
    run_of_execute rfl
  have hreturns : editReturns 6 paramsEdit editedTable
      ((editedTable.execute 6 paramsEdit).execute 7
        (.claimTaskExecution "t" "e" "node" taskScheduled none)) = true := by decide
  obtain ⟨hheld, -⟩ := (acknowledged_write_iff 6 paramsEdit rfl editedTable).mpr hidle _ _ hrun
    (by simp [executeTrace, tableStep, Statement.isInsert])
  exact ⟨rfl, _, _, hrun, hreturns, hheld hreturns⟩

/-- The task is running at the `UPDATE`, which drops the edit, and completed
before the query, which finds it idle: the call returns true although the row
never held the new parameters. -/
theorem acknowledged_write_dropped :
    let running := editedTable.execute 5 (.claimTaskExecution "t" "e" "node" taskScheduled none)
    ∃ others t', Run tableStep (running.execute 6 paramsEdit) others t' ∧
      (∀ τ ∈ others, TableTransition.Completes "t" "e" τ) ∧
      editReturns 6 paramsEdit running t' = true ∧
      ∀ u ∈ editTables 6 paramsEdit running others, ¬ paramsEdit.Held 6 u := by
  intro running
  have hrun : Run tableStep (running.execute 6 paramsEdit)
      (executeTrace tableStep (running.execute 6 paramsEdit)
        [⟨9, .completeTaskExecution "t" "e" taskScheduled (some 20) (some 9) 0⟩]) _ :=
    run_of_execute rfl
  refine ⟨_, _, hrun, ?_, by decide, by decide⟩
  simp [executeTrace, tableStep, TableTransition.Completes]

end Corpcron
