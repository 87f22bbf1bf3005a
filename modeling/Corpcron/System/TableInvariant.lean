import Corpcron.System.Deployment

/-!
# The `tasks` table in a deployment

Every statement a thread executes is one its callers are entitled to issue
(`statement_issued`): the statuses that handlers and scheduler write come from
constants, from checked requests or from checked snapshots, and the program
counters carry the result of the check.  With the step lemma of the row
invariant this gives the invariant for every reachable table.

`tableTrace` projects a run of the deployment onto the statements it executes.
The projection is a run of the table alone, so what holds for interleavings of
statements holds for the deployment.
-/

namespace Corpcron

open Lib

variable {env : Env} {s s' s₀ : State} {a : Action} {trace : List SystemTransition}
  {stmt : Statement}

/-! ## Who issues which statement -/

/-- The statements of the program: where each is issued and from which of the
thread's data its arguments come. -/
inductive Issues (cfg : NodeConfig) : Pc → Statement → Prop
  | recover (rest : List TaskMeta) (task : TaskMeta) :
      Issues cfg (.scheduler (.recovery rest task .recovering))
        (.recoverTaskExecution task.id task.currentExecutionId)
  | skip (pass : Pass) (skip : MisfireSkip) :
      Issues cfg (.scheduler (.skipping pass skip)) skip.statement
  | claim (pass : Pass) (d : Dispatch) :
      Issues cfg (.scheduler (.dispatching pass d .claiming))
        (.claimTaskExecution d.task.id d.executionId cfg.nodeId taskScheduled d.task.nextRunAt)
  | rollBack (pass : Pass) (d : Dispatch) :
      Issues cfg (.scheduler (.dispatching pass d .rollingBack))
        (.completeTaskExecution d.task.id d.executionId taskScheduled d.task.nextRunAt
          d.task.lastRunAt d.task.retryCount)
  | complete (d : Dispatch) (endTime : Option DateTime) (next : NextState) :
      Issues cfg (.execution d (.completing endTime next))
        (.completeTaskExecution d.task.id d.executionId next.status next.nextRunAt endTime
          next.retryCount)
  | submit (task : TaskMeta) (idle : IdleStatus task.status) :
      Issues cfg (.handler (.submitting task idle)) (.addTask task)
  | update (task : TaskMeta) (idle : IdleStatus task.status) :
      Issues cfg (.handler (.updating task idle)) (.updateTaskDefinition task)
  | enable (task : TaskMeta) (nextRunAt : Option DateTime) :
      Issues cfg (.handler (.enabling task nextRunAt))
        (.updateTaskRuntime task.id taskScheduled nextRunAt task.lastRunAt task.retryCount)
  | cancel (taskId text failure : String) :
      Issues cfg (.handler (.canceling taskId text failure)) (.cancelTask taskId)
  | delete (taskId : String) : Issues cfg (.handler (.deleting taskId)) (.deleteTask taskId)
  | manualClaim (m : ManualRun) :
      Issues cfg (.handler (.claiming m))
        (.claimTaskExecution m.task.id m.executionId cfg.dispatchNode m.task.status none)
  | manualComplete (m : ManualRun) (endTime : Option DateTime) (outcome : ExecutionOutcome)
      (historySaved : Bool) :
      Issues cfg (.handler (.completing m endTime outcome historySaved))
        (.completeTaskExecution m.task.id m.executionId m.task.status m.task.nextRunAt endTime
          m.task.retryCount)

/-- The statement of a thread's access is one of these. -/
theorem issues_of_access {pf : Platform} {cfg : NodeConfig} {pc : Pc}
    (h : pc.access pf cfg = .db (.update stmt)) : Issues cfg pc stmt := by
  cases pc with
  | scheduler pc =>
      cases pc with
      | recovery rest task stage =>
          cases stage <;> simp [Pc.access, SchedulerPc.access] at h
          subst h
          exact .recover rest task
      | skipping pass skip =>
          simp only [Pc.access, SchedulerPc.access, Access.db.injEq, DbAccess.update.injEq] at h
          subst h
          exact .skip pass skip
      | dispatching pass d stage =>
          cases stage <;> simp [Pc.access, SchedulerPc.access, DispatchStage.access] at h <;>
            subst h
          · exact .claim pass d
          · exact .rollBack pass d
      | _ => simp [Pc.access, SchedulerPc.access] at h
  | execution d stage =>
      cases stage <;> simp [Pc.access, ExecutionStage.access] at h
      subst h
      exact .complete d _ _
  | handler pc =>
      cases pc <;> simp [Pc.access, HandlerPc.access] at h <;> subst h <;> constructor
  | renewer pc => cases pc <;> simp [Pc.access, RenewerPc.access] at h
  | dead => simp [Pc.access] at h

/-- Callers write and expect idle statuses only. -/
theorem Issues.issued {cfg : NodeConfig} {pc : Pc} (h : Issues cfg pc stmt) :
    stmt.Issued := by
  cases h with
  | recover rest task => trivial
  | skip pass skip => exact skip.idle
  | claim pass d => exact .scheduled
  | rollBack pass d => exact .scheduled
  | complete d endTime next => exact next.idle
  | submit task idle => exact idle
  | update task idle => exact idle
  | enable task nextRunAt => exact .scheduled
  | cancel taskId failure => trivial
  | delete taskId => trivial
  | manualClaim m => exact m.idle
  | manualComplete m endTime outcome historySaved => exact m.idle

/-- Every statement of the deployment is issued by a thread. -/
theorem issuer_of_statement (h : statement? env s a = some stmt) :
    ∃ tid inp th, a = .run tid inp ∧ s.threads tid = some th ∧ inp.fault = false ∧
      Issues (env.node th.proc) th.pc stmt := by
  cases a with
  | run tid inp =>
      simp only [statement?, Option.bind_eq_some_iff, Access.statement?_eq_some] at h
      obtain ⟨th, hth, hfault, haccess⟩ := h
      exact ⟨tid, inp, th, rfl, hth, hfault, issues_of_access haccess⟩
  | _ => simp [statement?] at h

/-- A claim that compares the schedule expects a scheduled row. -/
theorem Issues.scheduled_of_claim {cfg : NodeConfig} {pc : Pc} {id e node : String}
    {status : Int} {next : Option DateTime}
    (h : Issues cfg pc (.claimTaskExecution id e node status next)) :
    next = none ∨ status = taskScheduled := by
  cases h with
  | claim pass d => exact Or.inr rfl
  | manualClaim m => exact Or.inl rfl

theorem statement_issued (h : statement? env s a = some stmt) : stmt.Issued := by
  obtain ⟨tid, inp, th, -, -, -, hissues⟩ := issuer_of_statement h
  exact hissues.issued

/-! ## The row invariant -/

/-- One action keeps the invariant of a row. -/
theorem rowsValid_step {id : String} (h : step env s a = some s')
    (hvalid : RowsValid (s.stores.tasks.find? id)) :
    RowsValid (s'.stores.tasks.find? id) := by
  rw [find?_step h]
  cases hstmt : statement? env s a with
  | none => exact hvalid
  | some stmt =>
      simp only
      split
      · exact Statement.applyRow_valid (statement_issued hstmt) hvalid
      · exact hvalid

/-- The invariant of a row along a run. -/
theorem rowsValid_run {id : String} (hrun : Run (step env) s₀ trace s)
    (hvalid : RowsValid (s₀.stores.tasks.find? id)) :
    RowsValid (s.stores.tasks.find? id) :=
  hrun.invariant (P := fun s => RowsValid (s.stores.tasks.find? id)) hvalid
    fun _ _ hstep hpre => rowsValid_step hstep hpre

/-- **Task row invariant.**  In every state a deployment can reach from a table of
valid rows, each row is `DISABLED`, `SCHEDULED` or `RUNNING`; it is `RUNNING`
exactly when its execution id, node and start time are all set, and otherwise
all three are `NULL`. -/
theorem task_row_invariant {env : Env} {s₀ s : State} {trace : List SystemTransition}
    (hrun : Run (step env) s₀ trace s)
    (hvalid : ∀ row ∈ s₀.stores.tasks.rows, RowValid row) :
    ∀ row ∈ s.stores.tasks.rows,
      (row.status = taskDisabled ∨ row.status = taskScheduled ∨ row.status = taskRunning) ∧
      (row.status = taskRunning ↔
        row.currentExecutionId ≠ none ∧ row.runningNode ≠ none ∧ row.startedAt ≠ none) ∧
      (row.status ≠ taskRunning →
        row.currentExecutionId = none ∧ row.runningNode = none ∧ row.startedAt = none) := by
  intro row hrow
  have hinit : RowsValid (s₀.stores.tasks.find? row.id) := by
    intro r hr
    exact hvalid r (KeyedTable.mem_of_find? hr)
  have hrowValid : RowValid row := rowsValid_run hrun hinit row (KeyedTable.find?_of_mem hrow)
  refine ⟨hrowValid.status_code, ⟨hrowValid.running_set, ?_⟩, hrowValid.idle_null⟩
  intro hset
  by_contra hidle
  exact hset.1 (hrowValid.idle_null hidle).1

theorem sampleState_valid : ∀ row ∈ sampleState.stores.tasks.rows, RowValid row := by
  intro row hrow
  rw [sampleState_rows, List.mem_singleton] at hrow
  subst hrow
  exact rowValid_of_idle .scheduled rfl rfl rfl

/-- A node is started and serves one `RunTaskNow` up to its claim. -/
def manualClaim : List Action :=
  [.boot 0 0 1, .request 0 2 { request := .runTaskNow "t" } {}, .run 2 { uuid := "u" }, .run 2 {}]

theorem task_row_invariant_manualClaim :
    ∃ trace s, Run (step sampleEnv) sampleState trace s ∧
      (∃ row ∈ s.stores.tasks.rows, row.status = taskRunning) ∧
      ∀ row ∈ s.stores.tasks.rows, row.status = taskRunning ↔
        row.currentExecutionId ≠ none ∧ row.runningNode ≠ none ∧ row.startedAt ≠ none := by
  obtain ⟨s, hrun, hrunning⟩ := exists_run_of_execute (s := sampleState)
    (p := fun s => s.stores.tasks.rows.any fun row => row.status == taskRunning)
    (show (execute (step sampleEnv) sampleState manualClaim).any _ = true by decide)
  exact ⟨_, s, hrun, by simpa using hrunning,
    fun row hrow => (task_row_invariant hrun sampleState_valid row hrow).2.1⟩

/-! ## Projection onto the table -/

/-- The statement of a transition as a transition of the table. -/
def tableTransition? (env : Env) (τ : SystemTransition) : Option TableTransition :=
  (statement? env τ.pre τ.action).map fun stmt =>
    ⟨τ.pre.stores.tasks, ⟨τ.pre.stores.now, stmt⟩, τ.post.stores.tasks⟩

/-- The statements executed in a run. -/
def tableTrace (env : Env) (trace : List SystemTransition) : List TableTransition :=
  trace.filterMap (tableTransition? env)

/-- The statements executed in a run of the deployment are a run of the table, and
all of them are issued. -/
theorem tableTrace_run (hrun : Run (step env) s₀ trace s) :
    Run tableStep s₀.stores.tasks (tableTrace env trace) s.stores.tasks ∧
      ∀ τ ∈ tableTrace env trace, τ.action.stmt.Issued := by
  constructor
  · -- A transition without a statement leaves no trace and does not change the table.
    induction hrun with
    | nil => exact Run.nil
    | @snoc m s' trace a hrun hstep ih =>
        simp only [tableTrace, List.filterMap_append, List.filterMap_cons, List.filterMap_nil]
        have htasks := step_tasks hstep
        cases hstmt : statement? env m a with
        | none =>
            rw [hstmt] at htasks
            simp only [tableTransition?, hstmt, Option.map_none, List.append_nil]
            rw [htasks]
            exact ih
        | some stmt =>
            rw [hstmt] at htasks
            simp only [tableTransition?, hstmt, Option.map_some]
            apply Run.snoc ih
            simp only [tableStep, htasks]
  · intro τ hτ
    obtain ⟨x, -, hx⟩ := List.mem_filterMap.mp hτ
    obtain ⟨stmt, hstmt, rfl⟩ := Option.map_eq_some_iff.mp hx
    exact statement_issued hstmt

/-- The statements that a deployment executes, with all its nodes, requests and
crashes, are a run of the table alone in which every statement is one that the
program issues.  So what is known of such runs holds in a deployment: an
execution is ended at most once. -/
theorem deployment_refines_table {env : Env} {s₀ s : State} {trace : List SystemTransition}
    (hrun : Run (step env) s₀ trace s) :
    Run tableStep s₀.stores.tasks (tableTrace env trace) s.stores.tasks ∧
    (∀ τ ∈ tableTrace env trace, τ.action.stmt.Issued) ∧
    ∀ id e, RowsValid (s₀.stores.tasks.find? id) → executionOf id s₀.stores.tasks = none →
      (claimIds id (tableTrace env trace)).Nodup →
      (tableTrace env trace).countP (fun τ => decide (TableTransition.Ends id e τ)) ≤ 1 := by
  obtain ⟨htable, hissued⟩ := tableTrace_run hrun
  refine ⟨htable, hissued, fun id e hvalid hfree hdistinct => ?_⟩
  exact countP_ends_le_one htable hvalid hfree hissued hdistinct e

/-- The handler of the `RunTaskNow` goes on to the end. -/
theorem deployment_refines_table_manualRun :
    ∃ trace s, Run (step sampleEnv) sampleState trace s ∧
      Run tableStep sampleState.stores.tasks (tableTrace sampleEnv trace) s.stores.tasks ∧
      (tableTrace sampleEnv trace).countP
        (fun τ => decide (TableTransition.Ends "t" "manual:t:u" τ)) = 1 := by
  obtain ⟨s, hrun⟩ := exists_run_of_isSome
    (show (execute (step sampleEnv) sampleState (manualClaim ++ executes 2 11000 3)).isSome = true
      by decide)
  obtain ⟨htable, -, hends⟩ := deployment_refines_table hrun
  exact ⟨_, s, hrun, htable, Nat.le_antisymm
    (hends "t" "manual:t:u" (fun row hrow => sampleState_valid row (KeyedTable.mem_of_find? hrow))
      (by decide) (by decide)) (by decide)⟩

end Corpcron
