import Mathlib.Data.List.Sort
import Corpcron.Common.Time
import Corpcron.Lib.KeyedTable

/-!
# The `tasks` and `task_history` tables

`MySQLClient` changes a task through nine SQL statements, each addressed by
the task id and each guarded by its own `WHERE` clause.  `Statement` lists them
with the arguments the C++ methods take; `Statement.applyRow` is the effect of
one statement on the row it addresses and `Statement.affected` says whether
`executeUpdate` reports a changed row.  MySQL counts rows whose values really
change, so an `UPDATE` that writes what is already there reports none.

`TaskTable.execute` is the same statement on the whole table.  The two are
connected by `TaskTable.find?_execute`: after a statement the addressed row is
what `applyRow` says and every other row is untouched.
-/

namespace Corpcron

/-! ## Columns -/

/-- `TASK_DISABLED`. -/
def taskDisabled : Int := 0
/-- `TASK_SCHEDULED`. -/
def taskScheduled : Int := 1
/-- `TASK_RUNNING`. -/
def taskRunning : Int := 2

/-- `TaskMeta`: a task as the C++ code carries it.  An empty text for a time
column is `none`. -/
structure TaskMeta where
  id : String
  cronExpr : String := ""
  params : String := ""
  handler : String := ""
  status : Int := taskDisabled
  nextRunAt : Option DateTime := none
  lastRunAt : Option DateTime := none
  retryCount : Int := 0
  maxRetries : Int := 3
  currentExecutionId : String := ""
  runningNode : String := ""
  startedAt : Option DateTime := none
deriving DecidableEq

/-- One row of `tasks`; `none` is `NULL`. -/
structure TaskRow where
  id : String
  cronExpr : String
  params : String
  handler : String
  status : Int
  nextRunAt : Option DateTime
  lastRunAt : Option DateTime
  retryCount : Int
  maxRetries : Int
  currentExecutionId : Option String
  runningNode : Option String
  startedAt : Option DateTime
  createdAt : DateTime
deriving DecidableEq

/-- `task_from_result`: `getString` reads `NULL` as the empty text. -/
def taskFromResult (row : TaskRow) : TaskMeta where
  id := row.id
  cronExpr := row.cronExpr
  params := row.params
  handler := row.handler
  status := row.status
  nextRunAt := row.nextRunAt
  lastRunAt := row.lastRunAt
  retryCount := row.retryCount
  maxRetries := row.maxRetries
  currentExecutionId := row.currentExecutionId.getD ""
  runningNode := row.runningNode.getD ""
  startedAt := row.startedAt

/-! ## Statements -/

/-- The statements that write `tasks`, with the arguments of the methods that
prepare them. -/
inductive Statement where
  | addTask (task : TaskMeta)
  | updateTaskDefinition (task : TaskMeta)
  | updateTaskSchedule (id : String) (nextRunAt lastRunAt : Option DateTime)
      (retryCount : Int)
  | updateTaskRuntime (id : String) (status : Int)
      (nextRunAt lastRunAt : Option DateTime) (retryCount : Int)
  | deleteTask (id : String)
  | claimTaskExecution (id executionId nodeId : String) (expectedStatus : Int)
      (expectedNextRunAt : Option DateTime)
  | recoverTaskExecution (id executionId : String)
  | completeTaskExecution (id executionId : String) (status : Int)
      (nextRunAt lastRunAt : Option DateTime) (retryCount : Int)
  | cancelTask (id : String)
deriving DecidableEq

/-- The id in the `WHERE` clause, or of the inserted row. -/
def Statement.taskId : Statement → String
  | .addTask task => task.id
  | .updateTaskDefinition task => task.id
  | .updateTaskSchedule id _ _ _ => id
  | .updateTaskRuntime id _ _ _ _ => id
  | .deleteTask id => id
  | .claimTaskExecution id _ _ _ _ => id
  | .recoverTaskExecution id _ => id
  | .completeTaskExecution id _ _ _ _ _ => id
  | .cancelTask id => id

/-- The row that `INSERT` creates: the execution columns take their default
`NULL`, `last_run_at` is not listed either. -/
def insertedRow (now : DateTime) (task : TaskMeta) : TaskRow where
  id := task.id
  cronExpr := task.cronExpr
  params := task.params
  handler := task.handler
  status := task.status
  nextRunAt := task.nextRunAt
  lastRunAt := none
  retryCount := task.retryCount
  maxRetries := task.maxRetries
  currentExecutionId := none
  runningNode := none
  startedAt := none
  createdAt := now

/-- The `WHERE` clause apart from the id, for the statements that have one. -/
def Statement.guard (now : DateTime) : Statement → TaskRow → Bool
  -- An `INSERT` with an id that exists fails on the primary key.
  | .addTask _, _ => false
  | .updateTaskDefinition _, row => row.status != taskRunning
  | .updateTaskSchedule _ _ _ _, row => row.status != taskRunning
  | .updateTaskRuntime _ _ _ _ _, row => row.status != taskRunning
  | .deleteTask _, row => row.status != taskRunning
  | .claimTaskExecution _ _ _ expectedStatus expectedNextRunAt, row =>
      -- An empty expected time selects the statement without the schedule comparison.
      match expectedNextRunAt with
      | none => row.status == expectedStatus
      | some expected =>
          row.status == expectedStatus && row.nextRunAt == some expected &&
            decide (expected ≤ now)
  | .recoverTaskExecution _ executionId, row =>
      row.status == taskRunning &&
        (row.currentExecutionId == some executionId ||
          (row.currentExecutionId == none && executionId == ""))
  | .completeTaskExecution _ executionId _ _ _ _, row =>
      row.currentExecutionId == some executionId && row.status == taskRunning
  | .cancelTask _, _ => true

/-- The `SET` clause. -/
def Statement.assign (now : DateTime) : Statement → TaskRow → TaskRow
  | .addTask _, row => row
  | .updateTaskDefinition task, row =>
      -- The execution columns are not in this `SET` clause.
      { row with
        cronExpr := task.cronExpr, params := task.params, handler := task.handler
        status := task.status, nextRunAt := task.nextRunAt
        lastRunAt := task.lastRunAt, retryCount := task.retryCount
        maxRetries := task.maxRetries }
  | .updateTaskSchedule _ nextRunAt lastRunAt retryCount, row =>
      { row with nextRunAt := nextRunAt, lastRunAt := lastRunAt, retryCount := retryCount }
  | .updateTaskRuntime _ status nextRunAt lastRunAt retryCount, row =>
      { row with
        status := status, nextRunAt := nextRunAt, lastRunAt := lastRunAt
        retryCount := retryCount
        currentExecutionId := none, runningNode := none, startedAt := none }
  | .deleteTask _, row => row
  | .claimTaskExecution _ executionId nodeId _ _, row =>
      { row with
        status := taskRunning, currentExecutionId := some executionId
        runningNode := some nodeId, startedAt := some now }
  | .recoverTaskExecution _ _, row =>
      -- `next_run_at` stays, so the occurrence is due again.
      { row with
        status := taskScheduled
        currentExecutionId := none, runningNode := none, startedAt := none }
  | .completeTaskExecution _ _ status nextRunAt lastRunAt retryCount, row =>
      { row with
        status := status, nextRunAt := nextRunAt, lastRunAt := lastRunAt
        retryCount := retryCount
        currentExecutionId := none, runningNode := none, startedAt := none }
  | .cancelTask _, row =>
      { row with
        status := 0, currentExecutionId := none, runningNode := none, startedAt := none }

/-- The `SET` clauses never write the primary key. -/
@[simp] theorem Statement.assign_id (now : DateTime) (stmt : Statement) (row : TaskRow) :
    (stmt.assign now row).id = row.id := by
  cases stmt <;> rfl

/-- Effect of a statement on the row with its id; `none` is "no such row". -/
def Statement.applyRow (now : DateTime) (stmt : Statement) :
    Option TaskRow → Option TaskRow
  | none =>
      match stmt with
      | .addTask task => some (insertedRow now task)
      | _ => none
  | some row =>
      match stmt with
      | .deleteTask _ => if stmt.guard now row then none else some row
      | _ => some (if stmt.guard now row then stmt.assign now row else row)

/-- Whether the statement changes a row: `executeUpdate() > 0`, and for the
`INSERT` that no duplicate-key exception is thrown. -/
def Statement.affected (now : DateTime) (stmt : Statement) (row : Option TaskRow) : Bool :=
  stmt.applyRow now row != row

/-! ## The table -/

/-- The `tasks` table with its primary key. -/
abbrev TaskTable := Lib.KeyedTable TaskRow.id

namespace TaskTable

/-- Execute one statement on the table.  The id in a statement is the id of the row
that its `WHERE` clause matches; the database also matches other spellings of it. -/
def execute (t : TaskTable) (now : DateTime) (stmt : Statement) : TaskTable :=
  match stmt with
  | .addTask task => (t.insert (insertedRow now task)).getD t
  | .deleteTask id => t.eraseWhere id (stmt.guard now)
  | _ => t.modify stmt.taskId
      (fun row => if stmt.guard now row then stmt.assign now row else row)
      (by intro row; split <;> simp)

/-- The `INSERT` takes effect exactly when the id is new. -/
theorem find?_execute_addTask (t : TaskTable) (now : DateTime) (task : TaskMeta)
    (id : String) :
    (t.execute now (.addTask task)).find? id =
      if id = task.id then Statement.applyRow now (.addTask task) (t.find? id)
      else t.find? id := by
  simp only [execute]
  cases hinsert : t.insert (insertedRow now task) with
  | none =>
      have hpresent : t.find? task.id ≠ none := Lib.KeyedTable.insert_eq_none_iff.mp hinsert
      by_cases hid : id = task.id
      · subst hid
        cases hrow : t.find? task.id with
        | none => exact absurd hrow hpresent
        | some row => simp [Statement.applyRow, Statement.guard, hrow]
      · simp [hid]
  | some t' =>
      have hfresh : t.find? task.id = none := by
        by_contra hne
        have hnone : t.insert (insertedRow now task) = none :=
          Lib.KeyedTable.insert_eq_none_iff.mpr hne
        rw [hnone] at hinsert
        simp at hinsert
      have hfind := Lib.KeyedTable.find?_insert hinsert id
      change t'.find? id = if id = task.id then _ else _ at hfind
      simp only [Option.getD_some, hfind]
      by_cases hid : id = task.id
      · subst hid
        simp [hfresh, Statement.applyRow]
      · simp [hid]

/-- The addressed row follows `applyRow`, all others stay. -/
theorem find?_execute (t : TaskTable) (now : DateTime) (stmt : Statement) (id : String) :
    (t.execute now stmt).find? id =
      if id = stmt.taskId then stmt.applyRow now (t.find? id) else t.find? id := by
  cases stmt with
  | addTask task => exact find?_execute_addTask t now task id
  | deleteTask target =>
      simp only [execute, Statement.taskId, Lib.KeyedTable.find?_eraseWhere]
      by_cases hid : id = target
      · cases hrow : t.find? id with
        | none => simp [hid, Statement.applyRow]
        | some row =>
            cases hguard : Statement.guard now (.deleteTask target) row <;>
              simp [hid, Statement.applyRow, hguard, Option.filter]
      · simp [hid]
  | _ =>
      simp only [execute, Lib.KeyedTable.find?_modify, Statement.taskId]
      congr 1
      cases hrow : t.find? id <;> simp [Statement.applyRow]

/-! ## Queries -/

/-- `getTask`. -/
def getTask (t : TaskTable) (id : String) : Option TaskMeta :=
  (t.find? id).map taskFromResult

/-- `task_exists`. -/
def taskExists (t : TaskTable) (id : String) : Bool :=
  (t.find? id).isSome

/-- `task_exists_and_is_not_running`. -/
def taskExistsAndIsNotRunning (t : TaskTable) (id : String) : Bool :=
  (t.find? id).any fun row => row.status != taskRunning

/-- The condition of `getDueTasks`. -/
def isDue (now : DateTime) (row : TaskRow) : Bool :=
  row.status == taskScheduled && (row.nextRunAt.all fun next => decide (next ≤ now))

/-- `ORDER BY next_run_at ASC, created_at ASC`; `NULL` sorts first. -/
def dueBefore (a b : TaskRow) : Bool :=
  match a.nextRunAt, b.nextRunAt with
  | none, none => decide (a.createdAt ≤ b.createdAt)
  | none, some _ => true
  | some _, none => false
  | some x, some y => decide (x < y) || (x == y && decide (a.createdAt ≤ b.createdAt))

/-- `getDueTasks(limit)`. -/
def getDueTasks (t : TaskTable) (now : DateTime) (limit : Nat) : List TaskMeta :=
  (((t.rows.filter (isDue now)).insertionSort (fun a b => dueBefore a b = true)).take
    limit).map taskFromResult

/-- The condition of `getStaleRunningTasks`. -/
def isStale (now : DateTime) (staleAfterSec : Int) (row : TaskRow) : Bool :=
  row.status == taskRunning &&
    (row.startedAt.any fun started => decide (started ≤ now - max staleAfterSec 0))

/-- `getStaleRunningTasks(stale_after_sec, limit)`. -/
def getStaleRunningTasks (t : TaskTable) (now : DateTime) (staleAfterSec : Int)
    (limit : Nat) : List TaskMeta :=
  (((t.rows.filter (isStale now staleAfterSec)).insertionSort
    (fun a b => a.startedAt.getD 0 ≤ b.startedAt.getD 0)).take limit).map taskFromResult

/-- The task returned by `getTask` is the current content of its row. -/
theorem of_getTask {t : TaskTable} {id : String} {task : TaskMeta}
    (h : t.getTask id = some task) :
    ∃ row, t.find? id = some row ∧ task = taskFromResult row ∧ task.id = id := by
  obtain ⟨row, hrow, rfl⟩ := Option.map_eq_some_iff.mp h
  have hkey : row.id = id := Lib.KeyedTable.key_of_find? hrow
  exact ⟨row, hrow, rfl, hkey⟩

/-- Every task returned by `getDueTasks` is the current content of a due
row. -/
theorem of_mem_getDueTasks {t : TaskTable} {now : DateTime} {limit : Nat}
    {task : TaskMeta} (h : task ∈ t.getDueTasks now limit) :
    ∃ row, t.find? task.id = some row ∧ isDue now row = true ∧ task = taskFromResult row := by
  obtain ⟨row, hrow, rfl⟩ := List.mem_map.mp h
  have hfilter : row ∈ t.rows.filter (isDue now) :=
    (List.mem_insertionSort _).mp (List.mem_of_mem_take hrow)
  obtain ⟨hmem, hdue⟩ := List.mem_filter.mp hfilter
  exact ⟨row, Lib.KeyedTable.find?_of_mem hmem, hdue, rfl⟩

/-- Every task returned by `getStaleRunningTasks` is the current content of a
stale row. -/
theorem of_mem_getStaleRunningTasks {t : TaskTable} {now : DateTime}
    {staleAfterSec : Int} {limit : Nat} {task : TaskMeta}
    (h : task ∈ t.getStaleRunningTasks now staleAfterSec limit) :
    ∃ row, t.find? task.id = some row ∧ isStale now staleAfterSec row = true ∧
      task = taskFromResult row := by
  obtain ⟨row, hrow, rfl⟩ := List.mem_map.mp h
  have hfilter : row ∈ t.rows.filter (isStale now staleAfterSec) :=
    (List.mem_insertionSort _).mp (List.mem_of_mem_take hrow)
  obtain ⟨hmem, hstale⟩ := List.mem_filter.mp hfilter
  exact ⟨row, Lib.KeyedTable.find?_of_mem hmem, hstale, rfl⟩

end TaskTable

/-! ## Execution history -/

/-- `TaskHistory`. -/
structure TaskHistory where
  executionId : String
  taskId : String
  execNode : String
  success : Bool
  result : String
  error : String
  startTime : Option DateTime
  endTime : Option DateTime
deriving DecidableEq

/-- `addHistory`: a row with the same non-empty `execution_id` is overwritten,
except for its task id. -/
def addHistory (history : List TaskHistory) (entry : TaskHistory) : List TaskHistory :=
  if entry.executionId ≠ "" ∧ history.any (fun h => h.executionId == entry.executionId) then
    history.map fun h =>
      if h.executionId = entry.executionId then { entry with taskId := h.taskId } else h
  else
    history ++ [entry]

end Corpcron
