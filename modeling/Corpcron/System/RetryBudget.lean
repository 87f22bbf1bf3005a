import Corpcron.System.RetrySchedule

/-!
# Retry budget of scheduled tasks

A scheduled task is expected to have a retry left: `retry_count < max_retries`.
Only the completion of an execution compares the two columns.  The module shows
that it and everything that writes back what it has read keep the relation, and
that it is lost exactly when `EnableTask`, `UpdateTask` or a recovery schedules a
task whose retries are used up (`scheduled_has_budget_iff`).

What a thread writes back was read from a table that had the relation, so the
copies it carries have it (`BudgetPc`).  The rows and the copies are followed
together through a run.  A copy is compared with the limit it was read with; that
nobody has lowered the limit in between is the assumption `staleLimit = false`.
-/

namespace Corpcron

open Lib

variable {env : Env} {s s₀ : State} {τ : SystemTransition} {trace : List SystemTransition}
  {tid : Nat} {inp : Input} {th : Thread} {stmt : Statement} {id : String} {task : TaskMeta}

/-! ## Budget -/

/-- A scheduled task has a retry left. -/
def TaskRow.hasBudget (row : TaskRow) : Bool :=
  row.status != taskScheduled || decide (row.retryCount < row.maxRetries)

theorem TaskRow.hasBudget_iff {row : TaskRow} :
    row.hasBudget = true ↔ (row.status = taskScheduled → row.retryCount < row.maxRetries) := by
  by_cases hstatus : row.status = taskScheduled <;> simp [TaskRow.hasBudget, hstatus]

/-- The same for the row of a task in a state. -/
def hasBudget (s : State) (id : String) : Bool :=
  (s.stores.tasks.find? id).all TaskRow.hasBudget

/-- The transition schedules a task whose retries are used up: an `UpdateTask`
with a limit that is not above the retry count it writes back, an `EnableTask`
that writes back a retry count at the limit of the row, or the recovery of such
a row. -/
def SystemTransition.schedulesExhausted (env : Env) (id : String) (τ : SystemTransition) : Bool :=
  τ.returned env &&
    match τ.runs? with
    | some (_, .handler (.updating task _)) =>
        task.id == id && task.status == taskScheduled && decide (task.maxRetries ≤ task.retryCount)
    | some (_, .handler (.enabling task _)) =>
        task.id == id && (τ.pre.stores.tasks.find? id).any fun row =>
          decide (row.maxRetries ≤ task.retryCount)
    | some (_, .scheduler (.recovery _ task .recovering)) =>
        task.id == id && (τ.pre.stores.tasks.find? id).any fun row =>
          decide (row.maxRetries ≤ row.retryCount)
    | _ => false

/-- The copy of a task from which a thread writes it back, in a misfire skip, a
rollback, or the completion of an execution. -/
def Pc.writesBack? : Pc → Option TaskMeta
  | .scheduler (.skipping _ skip) => some skip.task
  | .scheduler (.dispatching _ d .rollingBack) => some d.task
  | .execution d (.completing _ _) => some d.task
  | .handler (.completing m _ _ _) => some m.task
  | _ => none

/-- The transition writes a task back whose limit has been lowered since it was
read. -/
def SystemTransition.staleLimit (env : Env) (id : String) (τ : SystemTransition) : Bool :=
  τ.returned env && (τ.runs?.bind fun x => x.2.writesBack?).any fun task =>
    task.id == id && (τ.pre.stores.tasks.find? id).any fun row =>
      decide (row.maxRetries < task.maxRetries)

/-! ## What threads carry -/

/-- A copy from which the scheduler dispatches has a retry left. -/
def DispatchBudget (id : String) (task : TaskMeta) : Prop :=
  task.id = id → task.retryCount < task.maxRetries

/-- A copy that `RunTaskNow` writes back has a retry left if it is scheduled. -/
def ManualBudget (id : String) (task : TaskMeta) : Prop :=
  task.id = id → task.status = taskScheduled → task.retryCount < task.maxRetries

/-- The handlers: new tasks have retries, edited ones a positive limit. -/
def HandlerBudget (id : String) : HandlerPc → Prop
  | .submitting task _ => task.retryCount = 0 ∧ task.maxRetries = 3
  | .updating task _ => 1 ≤ task.maxRetries
  | .claiming m => ManualBudget id m.task
  | .invoking m _ => ManualBudget id m.task
  | .recording m _ _ _ => ManualBudget id m.task
  | .completing m _ _ _ => ManualBudget id m.task
  | .abandoned m _ => ManualBudget id m.task
  | _ => True

/-- All threads: what they will write back has a retry left. -/
def BudgetPc (env : Env) (id : String) : Pc → Prop
  | .scheduler pc => CarriesDispatch (DispatchBudget id) (.scheduler pc)
  | .execution d (.completing _ next) => DispatchBudget id d.task ∧
      ∃ success shutdown endMs systemNowMs,
        next = nextState env.platform d.task success shutdown endMs systemNowMs
  | .execution d _ => DispatchBudget id d.task
  | .handler pc => HandlerBudget id pc
  | _ => True

theorem budgetPc_execution {d : Dispatch} {stage : ExecutionStage}
    (h : BudgetPc env id (.execution d stage)) : DispatchBudget id d.task := by
  cases stage with
  | completing endTime next => exact h.1
  | _ => exact h

/-- The row of the table has a retry left and a positive limit. -/
def RowBudget (id : String) (t : TaskTable) : Prop :=
  ∀ row, t.find? id = some row → row.hasBudget = true ∧ 1 ≤ row.maxRetries

theorem dispatchBudget_of_due {t : TaskTable} {now : DateTime} {limit : Nat} (ht : RowBudget id t)
    (h : task ∈ t.getDueTasks now limit) :
    DispatchBudget id task := by
  intro hid
  obtain ⟨row, hrow, hdue, htask⟩ := TaskTable.of_mem_getDueTasks h
  rw [hid] at hrow
  simp only [TaskTable.isDue, Bool.and_eq_true, beq_iff_eq] at hdue
  rw [htask]
  exact TaskRow.hasBudget_iff.mp (ht row hrow).1 hdue.1

theorem manualBudget_of_read {key : String} {t : TaskTable} (ht : RowBudget id t)
    (h : t.getTask key = some task) : ManualBudget id task := by
  intro hid hstatus
  obtain ⟨row, hrow, rfl, hkey⟩ := TaskTable.of_getTask h
  rw [← hkey, hid] at hrow
  exact TaskRow.hasBudget_iff.mp (ht row hrow).1 hstatus

theorem handlerBudget_begin (pf : Platform) (cfg : NodeConfig) (inp : Input) (call : Call)
    (id : String) : HandlerBudget id (beginCall pf cfg inp call) := by
  unfold beginCall
  split
  · trivial
  · cases call.request with
    | submitTask cronExpr params handler =>
        simp only [beginSubmitTask]
        (repeat' split) <;> trivial
    | updateTask info =>
        dsimp only
        (repeat' split) <;> trivial
    | _ =>
        simp only [beginWithId]
        (repeat' split) <;> trivial

/-- A request for a limit that is not positive gives the default. -/
theorem updatedTask_maxRetries (info : TaskInfo) (existing : TaskMeta)
    (next : Option DateTime) : 1 ≤ (updatedTask info existing next).maxRetries := by
  simp only [updatedTask]
  split <;> omega

theorem handlerBudget_next {pf : Platform} {cfg : NodeConfig} {reply : Reply} {pc : HandlerPc}
    (hread : ∀ key task, pc.access pf cfg = .db (.getTask key) → reply.task = some task →
      ManualBudget id task) (h : HandlerBudget id pc) :
    HandlerBudget id (pc.next pf cfg inp reply) := by
  cases pc with
  | updateReading info =>
      rcases afterUpdateRead_cases pf inp info reply.task with
        ⟨response, hr⟩ | ⟨existing, next, idle, -, hr⟩
      · simp only [HandlerPc.next, hr]
        trivial
      · simp only [HandlerPc.next, hr]
        exact updatedTask_maxRetries info existing next
  | enableReading taskId enabled text =>
      rcases afterEnableRead_cases pf inp taskId enabled text reply.task with
        ⟨response, hr⟩ | ⟨-, hr⟩ | ⟨task, next, -, -, hr⟩ <;> simp only [HandlerPc.next, hr] <;>
        trivial
  | deleteReading taskId =>
      rcases afterDeleteRead_cases taskId reply.task with ⟨response, hr⟩ | hr <;>
        simp only [HandlerPc.next, hr] <;> trivial
  | runReading taskId =>
      rcases afterRunRead_cases inp reply.task with ⟨response, hr⟩ | ⟨m, htask, -, hr⟩
      · simp only [HandlerPc.next, hr]
        trivial
      · simp only [HandlerPc.next, hr]
        exact hread taskId m.task rfl htask
  | updating task idle =>
      rcases afterUpdate_cases reply task.id with ⟨response, hr⟩ | hr <;>
        simp only [HandlerPc.next, hr] <;> trivial
  | enabling task next =>
      rcases afterUpdate_cases reply task.id with ⟨response, hr⟩ | hr <;>
        simp only [HandlerPc.next, hr] <;> trivial
  | claiming m =>
      simp only [HandlerPc.next]
      split
      · exact h
      · trivial
  | invoking m startMs =>
      simp only [HandlerPc.next]
      split <;> exact h
  | recording m startMs endMs outcome => exact h
  | abandoned m response => exact h
  | _ =>
      simp only [HandlerPc.next]
      (repeat' split) <;> trivial

/-- One step of a thread in a state whose row has the budget. -/
theorem budgetPc_advance {stores : Stores} (ht : RowBudget id stores.tasks)
    (h : BudgetPc env id th.pc) :
    BudgetPc env id (th.advance env inp stores).pc := by
  obtain ⟨p, pc⟩ := th
  cases pc with
  | scheduler pc =>
      cases hscan : (Pc.scheduler pc).scansDue with
      | true =>
          -- The scan replaces what the thread carries.
          obtain rfl : pc = .scanningDue := by
            simpa using Pc.scansDue_iff.mp hscan
          have hdue : CarriesDispatch (· ∈ stores.tasks.getDueTasks stores.now 100)
              (Thread.advance env inp stores ⟨p, .scheduler .scanningDue⟩).pc :=
            carriesDispatch_of_scan p inp
          refine ⟨?_, fun task htask => ?_⟩
          · intro task htask
            exact dispatchBudget_of_due ht (hdue.1 task htask)
          · exact dispatchBudget_of_due ht (hdue.2 task htask)
      | false => exact carriesDispatch_next hscan h
  | execution d stage =>
      have hd := budgetPc_execution h
      cases stage with
      | choosing endMs outcome =>
          simp only [Thread.advance, Pc.next, ExecutionStage.next, ExecutionStage.orUnwind]
          split
          · exact hd
          · exact ⟨hd, _, _, _, _, rfl⟩
      | _ =>
          simp only [Thread.advance, Pc.next, ExecutionStage.next, ExecutionStage.orUnwind]
          (repeat' split) <;> exact hd
  | handler pc =>
      apply handlerBudget_next _ h
      intro key task haccess hreply
      have hcall : Thread.access env ⟨p, .handler pc⟩ = .db (.getTask key) := haccess
      rw [Thread.exec_db hcall] at hreply
      split at hreply
      · simp at hreply
      · exact manualBudget_of_read ht hreply
  | renewer pc => trivial
  | dead => trivial

/-! ## What statements do to the row -/

/-- The choice of the next state leaves a retry. -/
theorem nextState_budget {pf : Platform} {success shutdown : Bool} {endMs systemNowMs : Nat}
    {limit : Int} (htask : task.retryCount < task.maxRetries) (hlimit : task.maxRetries ≤ limit)
    (hpos : 1 ≤ limit)
    (hstatus : (nextState pf task success shutdown endMs systemNowMs).status = taskScheduled) :
    (nextState pf task success shutdown endMs systemNowMs).retryCount < limit := by
  have hne : taskDisabled ≠ taskScheduled := by decide
  unfold nextState at *
  cases shutdown with
  | true =>
      simp only [if_true]
      omega
  | false =>
      cases success with
      | true =>
          simp only [Bool.false_eq_true, if_false, if_true] at *
          split
          · change (0 : Int) < limit
            omega
          · change (0 : Int) < limit
            omega
      | false =>
          simp only [Bool.false_eq_true, if_false] at *
          by_cases hlast : task.retryCount + 1 ≥ task.maxRetries
          · rw [if_pos hlast] at hstatus
            exact absurd hstatus hne
          · rw [if_neg hlast]
            change task.retryCount + 1 < limit
            omega

/-- The limit a copy is compared with has not been lowered. -/
theorem SystemTransition.limit_of_fresh {pc : Pc} {row : TaskRow}
    (hfresh : τ.staleLimit env id = false) (hreturned : τ.returned env = true)
    (hruns : τ.runs? = some (tid, pc)) (hwrites : pc.writesBack? = some task) (hid : task.id = id)
    (hrow : τ.pre.stores.tasks.find? id = some row) : task.maxRetries ≤ row.maxRetries := by
  simp only [staleLimit, hreturned, hruns, Option.bind_some, hwrites, Option.any_some, hid,
    beq_self_eq_true, hrow, Bool.true_and, decide_eq_false_iff_not] at hfresh
  omega

/-- An `UPDATE` on a row with a retry left leaves it with one, unless it
schedules a task whose retries are used up. -/
theorem budget_of_update {pc : Pc} {cfg : NodeConfig} {r : TaskRow}
    (hruns : τ.runs? = some (tid, pc)) (hissues : Issues cfg pc stmt)
    (hreturned : τ.returned env = true) (hfresh : τ.staleLimit env id = false)
    (hexhausted : τ.schedulesExhausted env id = false) (hpc : BudgetPc env id pc)
    (hid : stmt.taskId = id) (hr : τ.pre.stores.tasks.find? id = some r)
    (hbudget : r.hasBudget = true) (hlimit : 1 ≤ r.maxRetries) :
    (stmt.assign τ.pre.stores.now r).hasBudget = true ∧
      1 ≤ (stmt.assign τ.pre.stores.now r).maxRetries := by
  simp only [SystemTransition.schedulesExhausted, hreturned, hruns, hr, Bool.true_and,
    Option.any_some] at hexhausted
  rw [TaskRow.hasBudget_iff]
  cases hissues with
  | recover rest task =>
      change task.id = id at hid
      simp only [hid, beq_self_eq_true, Bool.true_and, decide_eq_false_iff_not] at hexhausted
      refine ⟨fun _ => ?_, hlimit⟩
      change r.retryCount < r.maxRetries
      omega
  | skip pass skip =>
      have hkept := SystemTransition.limit_of_fresh hfresh hreturned hruns rfl hid hr
      have htask := hpc.1.1 hid
      refine ⟨fun _ => ?_, hlimit⟩
      change skip.task.retryCount < r.maxRetries
      omega
  | claim pass d =>
      refine ⟨fun hstatus => ?_, hlimit⟩
      change taskRunning = taskScheduled at hstatus
      exact absurd hstatus (by decide)
  | rollBack pass d =>
      have hkept := SystemTransition.limit_of_fresh hfresh hreturned hruns rfl hid hr
      have htask := hpc.2 d.task rfl hid
      refine ⟨fun _ => ?_, hlimit⟩
      change d.task.retryCount < r.maxRetries
      omega
  | complete d endTime next =>
      have hkept := SystemTransition.limit_of_fresh hfresh hreturned hruns rfl hid hr
      obtain ⟨hd, success, shutdown, endMs, systemNowMs, rfl⟩ := hpc
      exact ⟨fun hstatus => nextState_budget (hd hid) hkept hlimit hstatus, hlimit⟩
  | submit task idle => exact ⟨TaskRow.hasBudget_iff.mp hbudget, hlimit⟩
  | update task idle =>
      change task.id = id at hid
      refine ⟨fun hstatus => ?_, hpc⟩
      change task.status = taskScheduled at hstatus
      simp only [hid, beq_self_eq_true, hstatus, Bool.true_and, decide_eq_false_iff_not]
        at hexhausted
      change task.retryCount < task.maxRetries
      omega
  | enable task next =>
      change task.id = id at hid
      simp only [hid, beq_self_eq_true, Bool.true_and, decide_eq_false_iff_not] at hexhausted
      refine ⟨fun _ => ?_, hlimit⟩
      change task.retryCount < r.maxRetries
      omega
  | cancel taskId failure =>
      refine ⟨fun hstatus => ?_, hlimit⟩
      change taskDisabled = taskScheduled at hstatus
      exact absurd hstatus (by decide)
  | delete taskId => exact ⟨TaskRow.hasBudget_iff.mp hbudget, hlimit⟩
  | manualClaim m =>
      refine ⟨fun hstatus => ?_, hlimit⟩
      change taskRunning = taskScheduled at hstatus
      exact absurd hstatus (by decide)
  | manualComplete m endTime outcome historySaved =>
      have hkept := SystemTransition.limit_of_fresh hfresh hreturned hruns rfl hid hr
      refine ⟨fun hstatus => ?_, hlimit⟩
      have htask := hpc hid hstatus
      change m.task.retryCount < r.maxRetries
      omega

/-- The statement of a transition on the row of a task, with the thread that
issues it. -/
theorem issues_of_statement (hstmt : statement? env τ.pre τ.action = some stmt) :
    ∃ tid th, τ.runs? = some (tid, th.pc) ∧ τ.pre.threads tid = some th ∧
      Issues (env.node th.proc) th.pc stmt := by
  obtain ⟨tid, inp, ⟨p, pc⟩, haction, hth, -, hissues⟩ := issuer_of_statement hstmt
  exact ⟨tid, ⟨p, pc⟩, SystemTransition.runs?_eq_some.mpr ⟨inp, p, haction, hth⟩, hth, hissues⟩

/-- One step keeps the budget of the row. -/
theorem rowBudget_step (hstep : step env τ.pre τ.action = some τ.post)
    (hfresh : τ.staleLimit env id = false) (hexhausted : τ.schedulesExhausted env id = false)
    (hthreads : ∀ tid th, τ.pre.threads tid = some th → BudgetPc env id th.pc)
    (hrow : RowBudget id τ.pre.stores.tasks) : RowBudget id τ.post.stores.tasks := by
  rcases row_of_step hstep id with hsame | ⟨stmt, hstmt, hreturned, hid⟩
  · intro row hpost
    rw [hsame] at hpost
    exact hrow row hpost
  obtain ⟨tid, th, hruns, hth, hissues⟩ := issues_of_statement hstmt
  have hpc := hthreads tid th hth
  cases hupdate : stmt.isUpdate with
  | true =>
      obtain ⟨r, hr, -, hpost⟩ := SystemTransition.post_of_returned hstep hstmt hupdate hreturned
      rw [hid] at hr hpost
      obtain ⟨hbudget, hlimit⟩ := hrow r hr
      intro row hrow'
      rw [hpost, Option.some.injEq] at hrow'
      subst hrow'
      exact budget_of_update hruns hissues hreturned hfresh hexhausted hpc hid hr hbudget hlimit
  | false =>
      intro row hpost
      have hrow' := hpost
      rw [find?_step hstep, hstmt] at hrow'
      dsimp only at hrow'
      rw [if_pos hid.symm] at hrow'
      generalize th.pc = pc at hpc hissues
      cases hissues with
      | submit task idle =>
          cases hr : τ.pre.stores.tasks.find? id with
          | some r =>
              rw [hr] at hrow'
              simp only [Statement.applyRow, Statement.guard, Bool.false_eq_true, if_false,
                Option.some.injEq] at hrow'
              subst hrow'
              exact hrow r hr
          | none =>
              rw [hr] at hrow'
              simp only [Statement.applyRow, Option.some.injEq] at hrow'
              subst hrow'
              obtain ⟨hcount, hlimit⟩ := hpc
              rw [TaskRow.hasBudget_iff]
              simp only [insertedRow, hcount, hlimit]
              exact ⟨fun _ => by decide, by decide⟩
      | delete taskId =>
          change taskId = id at hid
          subst hid
          rw [SystemTransition.post_of_delete hstep hstmt hreturned] at hpost
          cases hpost
      | _ => cases hupdate

/-- Rows and copies have the budget after every step of a run in which nobody
schedules a task whose retries are used up. -/
theorem budget_of_run (hrun : Run (step env) s₀ trace s) (hstart : ∀ tid, s₀.threads tid = none)
    (hinit : RowBudget id s₀.stores.tasks) (hfresh : ∀ τ ∈ trace, τ.staleLimit env id = false)
    (hexhausted : ∀ τ ∈ trace, τ.schedulesExhausted env id = false) :
    RowBudget id s.stores.tasks ∧ ∀ tid th, s.threads tid = some th → BudgetPc env id th.pc := by
  apply hrun.invariant (P := fun s => RowBudget id s.stores.tasks ∧
    ∀ tid th, s.threads tid = some th → BudgetPc env id th.pc)
  · exact ⟨hinit, fun tid th hth => by simp [hstart] at hth⟩
  · rintro τ hτ hstep ⟨hrow, hthreads⟩
    refine ⟨rowBudget_step hstep (hfresh τ hτ) (hexhausted τ hτ) hthreads hrow, ?_⟩
    intro tid th hth
    cases threadOrigin hstep hth with
    | kept hbefore hidle => exact hthreads tid th hbefore
    | moved inp th₀ haction hbefore heq =>
        subst heq
        exact budgetPc_advance hrow (hthreads tid th₀ hbefore)
    | spawned inp parent th₀ d haction hparent hspawn hname hfresh heq =>
        subst heq
        obtain ⟨pass, hpc, -⟩ := Pc.spawned_eq_some hspawn
        have hparentPc := hthreads parent th₀ hparent
        rw [hpc] at hparentPc
        exact hparentPc.2 d.task rfl
    | killed p th₀ haction hbefore heq =>
        subst heq
        trivial
    | booted p scheduler renewer haction hname hfresh heq =>
        rcases heq with rfl | rfl
        · exact ⟨trivial, fun _ h => by cases h⟩
        · trivial
    | called p call inp haction hfresh heq =>
        subst heq
        exact handlerBudget_begin env.platform (env.node p) inp call id

/-! ## The result -/

theorem hasBudget_of_rowBudget (h : RowBudget id s.stores.tasks) :
    hasBudget s id = true := by
  unfold hasBudget
  cases hrow : s.stores.tasks.find? id with
  | none => rfl
  | some row => exact (h row hrow).1

/-- An `EnableTask`, `UpdateTask` or recovery that schedules a task whose retries
are used up leaves a scheduled row without budget. -/
theorem not_hasBudget_of_schedulesExhausted (hstep : step env τ.pre τ.action = some τ.post)
    (h : τ.schedulesExhausted env id = true) : hasBudget τ.post id = false := by
  unfold SystemTransition.schedulesExhausted at h
  rw [Bool.and_eq_true] at h
  obtain ⟨hreturned, hmatch⟩ := h
  have hlost : ∀ row, τ.post.stores.tasks.find? id = some row → row.status = taskScheduled →
      row.maxRetries ≤ row.retryCount → hasBudget τ.post id = false := by
    intro row hrow hstatus hle
    simp only [hasBudget, hrow, Option.all_some]
    rw [Bool.eq_false_iff, Ne, TaskRow.hasBudget_iff]
    intro himp
    exact absurd (himp hstatus) (by omega)
  split at hmatch
  · rename_i tid task idle hruns
    simp only [Bool.and_eq_true, beq_iff_eq, decide_eq_true_eq] at hmatch
    obtain ⟨⟨rfl, hstatus⟩, hle⟩ := hmatch
    obtain ⟨-, r, -, -, hpost⟩ :=
      SystemTransition.rows_of_returned hstep hruns (fun _ => rfl) (fun _ => rfl) hreturned
    exact hlost _ hpost hstatus hle
  · rename_i tid task next hruns
    simp only [Bool.and_eq_true, beq_iff_eq] at hmatch
    obtain ⟨rfl, hmatch⟩ := hmatch
    obtain ⟨-, r, hr, -, hpost⟩ :=
      SystemTransition.rows_of_returned hstep hruns (fun _ => rfl) (fun _ => rfl) hreturned
    change τ.pre.stores.tasks.find? task.id = some r at hr
    rw [hr, Option.any_some, decide_eq_true_eq] at hmatch
    exact hlost _ hpost rfl hmatch
  · rename_i tid rest task hruns
    simp only [Bool.and_eq_true, beq_iff_eq] at hmatch
    obtain ⟨rfl, hmatch⟩ := hmatch
    obtain ⟨-, r, hr, -, hpost⟩ :=
      SystemTransition.rows_of_returned hstep hruns (fun _ => rfl) (fun _ => rfl) hreturned
    change τ.pre.stores.tasks.find? task.id = some r at hr
    rw [hr, Option.any_some, decide_eq_true_eq] at hmatch
    exact hlost _ hpost rfl hmatch
  · cases hmatch

/-- **Retry budget of scheduled tasks.**  For every run in which no copy of the
task is written back with a limit that has been lowered in the meantime: the row
has a retry left in every state in which it is scheduled exactly if no
`EnableTask`, `UpdateTask` or recovery schedules it when its retries are used
up.  From a scheduled row, one failed execution disables the task exactly if it
uses up the last retry. -/
theorem scheduled_has_budget_iff {env : Env} {id : String} {s₀ s : State}
    {trace : List SystemTransition} (hrun : Run (step env) s₀ trace s)
    (hstart : ∀ tid, s₀.threads tid = none) (hinit : RowBudget id s₀.stores.tasks)
    (hfresh : ∀ τ ∈ trace, τ.staleLimit env id = false) :
    ((∀ τ ∈ trace, hasBudget τ.post id = true) ↔
      ∀ τ ∈ trace, τ.schedulesExhausted env id = false) ∧
    ∀ row, s.stores.tasks.find? id = some row → ∀ s' (e : SchedulerExecution env id s s'),
      e.outcome.success = false → ∃ row', s'.stores.tasks.find? id = some row' ∧
        (row'.status = taskDisabled ↔ row.maxRetries ≤ row.retryCount + 1) := by
  refine ⟨⟨?_, ?_⟩, ?_⟩
  · intro hbudget τ hτ
    rw [Bool.eq_false_iff]
    intro hexhausted
    have hlost := not_hasBudget_of_schedulesExhausted (hrun.step_of_mem hτ) hexhausted
    rw [hbudget τ hτ] at hlost
    cases hlost
  · intro hexhausted τ hτ
    obtain ⟨before, after, rfl⟩ := List.append_of_mem hτ
    have hinitial : before ++ [τ] <+: before ++ τ :: after := ⟨after, by simp⟩
    have hsofar : Run (step env) s₀ (before ++ [τ]) τ.post :=
      Run.snoc hrun.split.1 hrun.split.2.1
    exact hasBudget_of_rowBudget (budget_of_run hsofar hstart hinit
      (fun x hx => hfresh x (hinitial.subset hx))
      fun x hx => hexhausted x (hinitial.subset hx)).1
  · intro row hrow s' e hfailure
    obtain ⟨-, row', hrow', -, -, -, hafter⟩ := e.row_after hrow
    refine ⟨row', hrow', ?_⟩
    obtain ⟨-, hstate⟩ := hafter hfailure
    by_cases hlast : row.retryCount + 1 ≥ row.maxRetries
    · rw [if_pos hlast] at hstate
      exact ⟨fun _ => hlast, fun _ => hstate⟩
    · rw [if_neg hlast] at hstate
      constructor
      · intro hdisabled
        rw [hstate.1] at hdisabled
        exact absurd hdisabled (by decide)
      · intro hle
        exact absurd hle hlast

/-- The sample task fails once and keeps two retries. -/
theorem scheduled_has_budget_iff_failure :
    ∃ (trace : List SystemTransition) (s : State), Run (step sampleEnv) sampleState trace s ∧
      (∀ τ ∈ trace, τ.staleLimit sampleEnv "t" = false) ∧
      (∃ row, s.stores.tasks.find? "t" = some row ∧ row.retryCount = 1) ∧
      ∀ τ ∈ trace, hasBudget τ.post "t" = true := by
  obtain ⟨s, hrun, hcount⟩ := exists_run_of_execute
    (show (execute (step sampleEnv) sampleState firstFailure).any (fun s =>
      (s.stores.tasks.find? "t").any fun row => row.retryCount == 1) = true by decide)
  generalize htrace : executeTrace (step sampleEnv) sampleState firstFailure = trace at hrun
  have hcheck : trace.all (fun τ => !SystemTransition.staleLimit sampleEnv "t" τ &&
      !SystemTransition.schedulesExhausted sampleEnv "t" τ) = true := by
    subst htrace; decide
  simp only [List.all_eq_true, Bool.and_eq_true, Bool.not_eq_true'] at hcheck
  have hinit : RowBudget "t" sampleState.stores.tasks := by
    intro row hrow
    obtain rfl : insertedRow 0 sampleTask = row := Option.some.inj hrow
    decide
  have hiff := (scheduled_has_budget_iff hrun (fun _ => rfl) hinit fun τ hτ => (hcheck τ hτ).1).1
  rw [Option.any_eq_true] at hcount
  obtain ⟨row, hrow, hone⟩ := hcount
  exact ⟨trace, s, hrun, fun τ hτ => (hcheck τ hτ).1, ⟨row, hrow, beq_iff_eq.mp hone⟩,
    hiff.mpr fun τ hτ => (hcheck τ hτ).2⟩

/-- The state before any node is started, without tasks. -/
def emptyState : State where
  stores := { now := 1, tasks := KeyedTable.empty }
  threads _ := none

/-- The scheduler thread `0` ends its pass and makes the next one at `now`, in
which the task is executed and fails. -/
def failedPass (now closure endMs : Nat) : List Action :=
  [.dbClock now] ++ runs 0 11 ++ [.run 0 { fresh := closure }] ++ fails closure endMs 6

/-- A task is submitted, fails three times and is thereby disabled; then it is
enabled. -/
def exhaustedRun : List Action :=
  [.boot 0 0 1, .request 0 2 { request := .submitTask "*/10 * * * * *" "" "Echo" }
      { clockMs := 1000, uuid := "t" }] ++ runs 2 1 ++ runs 0 2 ++
    failedPass 10 3 11000 ++ fails 3 11000 3 ++ failedPass 16 4 17000 ++ fails 4 17000 3 ++
    failedPass 27 5 28000 ++ fails 5 28000 3 ++
    [.request 0 6 { request := .enableTask "t" true } {}, .run 6 { clockMs := 30000 }] ++ runs 6 1

/-- `EnableTask` keeps the retry count that has used up the limit; the first
failure disables the task again. -/
theorem enabled_task_without_budget :
    ∃ (env : Env) (s₀ s₁ s : State) (trace : List SystemTransition) (row row' : TaskRow)
        (e : SchedulerExecution env "t" s₁ s), Run (step env) s₀ trace s₁ ∧
      (∀ tid, s₀.threads tid = none) ∧ RowBudget "t" s₀.stores.tasks ∧
      (∀ τ ∈ trace, τ.staleLimit env "t" = false) ∧
      (s₁.threads 6).any (fun th => th.pc.acknowledged) = true ∧
      s₁.stores.tasks.find? "t" = some row ∧ row.status = taskScheduled ∧
      2 ≤ row.maxRetries ∧ ¬ row.retryCount < row.maxRetries ∧
      e.outcome.success = false ∧ s.stores.tasks.find? "t" = some row' ∧
      row'.status = taskDisabled := by
  obtain ⟨s₁, hrun, hstate⟩ := exists_run_of_execute
    (show (execute (step sampleEnv) emptyState exhaustedRun).any (fun s₁ =>
      (s₁.threads 6).any (fun th => th.pc.acknowledged) &&
        (s₁.stores.tasks.find? "t").any (fun row => row.status == taskScheduled &&
          row.maxRetries == 3 && row.retryCount == 3) &&
        (execute (step sampleEnv) s₁ (failedPass 40 7 41000)).isSome &&
        executionEnd? sampleEnv "t" (executeTrace (step sampleEnv) s₁ (failedPass 40 7 41000))
          4 5 6 == some ⟨false, 41000, 41000⟩) = true by decide)
  generalize htrace : executeTrace (step sampleEnv) emptyState exhaustedRun = trace at hrun
  have hfresh : trace.all (fun τ => !SystemTransition.staleLimit sampleEnv "t" τ) = true := by
    subst htrace; decide
  simp only [List.all_eq_true, Bool.not_eq_true'] at hfresh
  simp only [Bool.and_eq_true, beq_iff_eq] at hstate
  obtain ⟨⟨⟨hacknowledged, hrow⟩, hnext⟩, hend⟩ := hstate
  rw [Option.any_eq_true] at hrow
  obtain ⟨row, hrow, hcolumns⟩ := hrow
  simp only [Bool.and_eq_true, beq_iff_eq] at hcolumns
  obtain ⟨⟨hstatus, hlimit⟩, hcount⟩ := hcolumns
  obtain ⟨s, hrun'⟩ := exists_run_of_isSome hnext
  obtain ⟨e, hended⟩ := exists_execution hrun' hend
  have hfailure : e.outcome.success = false := congrArg ExecutionEnd.success hended
  obtain ⟨-, row', hrow', -, -, -, hafter⟩ := e.row_after hrow
  have hdisabled := (hafter hfailure).2
  rw [if_pos (by omega)] at hdisabled
  have hinit : RowBudget "t" emptyState.stores.tasks := by
    intro row hrow
    cases hrow
  exact ⟨sampleEnv, emptyState, s₁, s, trace, row, row', e, hrun, fun _ => rfl, hinit, hfresh,
    hacknowledged, hrow, hstatus, by omega, by omega, hfailure, hrow', hdisabled⟩

end Corpcron
