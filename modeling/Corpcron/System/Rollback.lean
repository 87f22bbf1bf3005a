import Corpcron.Common.ThreadPoolRuns
import Corpcron.System.ExecutedDefinition

/-!
# Dispatches that are rolled back

A dispatch that has claimed its row and is not handed to the pool undoes the
claim: `enqueue_cleanup` completes the execution and writes the schedule, the
last run and the retry count of the scan back.  The pool itself takes every
closure (`closure_enqueued`), so this happens when the dispatch has been canceled.
The claim has compared the status and the schedule with those of the scan, and
nothing else; a manual execution in between leaves both as they are and writes the
last run.

`rollback_restores_iff` says when the row is again what it was before the claim.
After a recovery or a cancel the rollback finds no row that runs under its
execution id and writes nothing: the row of a cancel stays as it is, and a
recovery has restored the row itself.
-/

namespace Corpcron

open Lib

variable {env : Env} {s s' s₀ : State} {tid p : Nat} {inp : Input} {pass pass' : Pass}
  {d : Dispatch} {τ τc τb : SystemTransition} {trace before between after : List SystemTransition}
  {id e : String} {row₀ : TaskRow} {pc : Pc}

/-! ## The pool of the scheduler -/

/-- `thread_pool_`. -/
def schedulerPool : ThreadPool.Config where
  initThreads := 2
  maxThreads := 8
  backlogThreshold := 50

/-- The pool is stopped when the scheduler thread has been joined.  As long as it
has not been asked to stop, it takes the closure of every dispatch, and the
scheduler goes on with the next task. -/
theorem closure_enqueued {pool : ThreadPool.State Dispatch}
    {calls : List (ThreadPool.PoolTransition Dispatch)}
    (hpool : Run (ThreadPool.step schedulerPool) (ThreadPool.built schedulerPool) calls pool)
    (hstop : ∀ x ∈ calls, x.action ≠ .stop) (hstep : step env s (.run tid inp) = some s')
    (hth : s.threads tid = some ⟨p, .scheduler (.dispatching pass d .enqueueing)⟩)
    (henqueued : inp.enqueued = (ThreadPool.enqueue schedulerPool pool (some d)).lastAccepted) :
    s'.threads tid = some ⟨p, .scheduler (.iterating pass)⟩ := by
  rw [ThreadPool.lastAccepted_of_run hpool hstop rfl d] at henqueued
  rw [thread_of_run hstep hth]
  simp [Thread.advance, Pc.next, SchedulerPc.next, DispatchStage.next, henqueued]

/-! ## The row of a claim -/

/-- The columns that a claim and its completion do not write. -/
def TaskRow.definition (row : TaskRow) : String × String × String × Int × DateTime :=
  (row.cronExpr, row.params, row.handler, row.maxRetries, row.createdAt)

/-- A completion restores an idle row if it writes the schedule, the last run and
the retry count of that row. -/
theorem completed_eq_iff {now : DateTime} {next last : Option DateTime} {retry : Int}
    {row : TaskRow} (hid : row.id = row₀.id) (hvalid : RowValid row₀)
    (hscheduled : row₀.status = taskScheduled) :
    Statement.assign now (.completeTaskExecution id e taskScheduled next last retry) row = row₀ ↔
      row.definition = row₀.definition ∧ next = row₀.nextRunAt ∧ last = row₀.lastRunAt ∧
        retry = row₀.retryCount := by
  have hidle : row₀.status ≠ taskRunning := by
    rw [hscheduled]
    decide
  obtain ⟨hexec, hnode, hstarted⟩ := hvalid.idle_null hidle
  obtain ⟨_, _, _, _, _, _, _, _, _, _, _, _, _⟩ := row
  obtain ⟨_, _, _, _, _, _, _, _, _, _, _, _, _⟩ := row₀
  simp only at hid hscheduled hexec hnode hstarted
  subst hid hscheduled hexec hnode hstarted
  simp only [Statement.assign, TaskRow.definition, TaskRow.mk.injEq, Prod.mk.injEq]
  tauto

/-- A cancel of the row takes effect, by `CancelTask` or by an `EnableTask` that
disables the task. -/
def SystemTransition.cancels (env : Env) (id : String) (τ : SystemTransition) : Bool :=
  τ.returned env && statement? env τ.pre τ.action == some (.cancelTask id)

theorem SystemTransition.status_of_cancels (hstep : step env τ.pre τ.action = some τ.post)
    (h : τ.cancels env id = true) :
    ∃ row, τ.post.stores.tasks.find? id = some row ∧ row.status = taskDisabled := by
  simp only [SystemTransition.cancels, Bool.and_eq_true, beq_iff_eq] at h
  obtain ⟨r, -, -, hrow⟩ := SystemTransition.post_of_returned hstep h.2 rfl h.1
  exact ⟨_, hrow, rfl⟩

/-- While no other claim uses its execution id, a row that runs under the id is
the row of the claim, and has not been canceled. -/
theorem claimed_row_of_run (hrun : Run (step env) s trace s')
    (hfresh : ∀ x ∈ trace, x.claimed? env id ≠ some e)
    (hrunning : runningExecution (s'.stores.tasks.find? id) = some e) :
    s'.stores.tasks.find? id = s.stores.tasks.find? id ∧
      ∀ x ∈ trace, x.cancels env id = false := by
  revert hrunning
  apply hrun.history_invariant (P := fun (earlier : List SystemTransition) m =>
    runningExecution (m.stores.tasks.find? id) = some e →
      m.stores.tasks.find? id = s.stores.tasks.find? id ∧
        ∀ x ∈ earlier, x.cancels env id = false)
  · exact fun _ => ⟨rfl, fun x hx => by cases hx⟩
  · intro earlier τ hearlier _ hstep hbefore hafter
    have hτ : τ ∈ trace := hearlier.subset (by simp)
    obtain ⟨row, hrow, hstatus, hexec⟩ := runningExecution_eq_some.mp hafter
    rcases running_step hstep hrow hstatus with
      hsame | ⟨e', node, expected, next, r, hstmt, hr, hguard, rfl⟩
    · -- The row has not changed, and a cancel would have disabled it.
      rw [hrow, ← hsame] at hafter
      obtain ⟨hkept, hquiet⟩ := hbefore hafter
      refine ⟨by rw [hrow, ← hsame, hkept], ?_⟩
      intro x hx
      rcases List.mem_append.mp hx with hold | hnew
      · exact hquiet x hold
      · rw [List.mem_singleton] at hnew
        subst hnew
        rw [Bool.eq_false_iff]
        intro hcancels
        obtain ⟨row', hrow', hdisabled⟩ := SystemTransition.status_of_cancels hstep hcancels
        rw [hrow, Option.some.injEq] at hrow'
        rw [← hrow', hstatus] at hdisabled
        exact absurd hdisabled (by decide)
    · -- The row has just been claimed, with another id.
      simp only [Statement.assign, Option.some.injEq] at hexec
      subst hexec
      exact absurd (claimed?_of_guard hstmt hr hguard) (hfresh τ hτ)

/-! ## The rollback -/

/-- The scheduler thread before the `completeTaskExecution` of
`enqueue_cleanup`. -/
def Pc.rollsBack : Pc → Bool
  | .scheduler (.dispatching _ _ .rollingBack) => true
  | _ => false

theorem Pc.rollsBack_iff :
    pc.rollsBack = true ↔ ∃ pass d, pc = .scheduler (.dispatching pass d .rollingBack) := by
  constructor
  · intro h
    unfold Pc.rollsBack at h
    split at h
    · exact ⟨_, _, rfl⟩
    · cases h
  · rintro ⟨pass, d, rfl⟩
    rfl

/-- The rollback of a thread that has made no other claim is that of its
dispatch. -/
theorem rolledBack_of_claim {d' : Dispatch}
    (hrun : Run (step env) s₀ (before ++ τc :: (between ++ τb :: after)) s)
    (hclaim : τc.runs? = some (tid, .scheduler (.dispatching pass d .claiming)))
    (hsame : ∀ x ∈ between, x.runsAt tid (fun pc => pc.claim?.isSome) = false)
    (hrollback : τb.runs? = some (tid, .scheduler (.dispatching pass' d' .rollingBack))) :
    d'.task = d.task ∧ d'.executionId = d.executionId := by
  have honly : ClaimedOnly d.claim (.scheduler (.dispatching pass' d' .rollingBack)) := by
    apply carried hrun hclaim hrollback (fun c hc => by cases hc)
    · intro p inp _ _
      show ClaimedOnly d.claim (Pc.next _ _ _ _ (.scheduler (.dispatching pass d .claiming)))
      exact claimedOnly_of_claim rfl
    · intro x hx p pc inp reply hruns
      apply claimedOnly_next
      cases hpc : pc.claim? with
      | none => rfl
      | some c =>
          have hclaims : x.runsAt tid (fun pc => pc.claim?.isSome) = true :=
            SystemTransition.runsAt_iff.mpr ⟨pc, hruns, by rw [hpc]; rfl⟩
          rw [hsame x hx] at hclaims
          cases hclaims
  have hclaims : d'.claim = d.claim := honly d'.claim rfl
  exact ⟨congrArg Claim.task hclaims, congrArg Claim.executionId hclaims⟩

/-- A dispatch that is rolled back leaves its row as it was before the claim; a
row that has been canceled in between it leaves as it finds it. -/
def RollbackRestores (env : Env) (id : String) (τc : SystemTransition)
    (between : List SystemTransition) (τb : SystemTransition) : Prop :=
  ((∀ x ∈ between, x.cancels env id = false) →
      τb.post.stores.tasks.find? id = τc.pre.stores.tasks.find? id) ∧
    ((∃ x ∈ between, x.cancels env id = true) →
      τb.post.stores.tasks.find? id = τb.pre.stores.tasks.find? id)

/-- The scan of the dispatch has the columns that the rollback writes as they
are in the row. -/
def ScanCurrent (task : TaskMeta) (row : TaskRow) : Prop :=
  task.nextRunAt = row.nextRunAt ∧ task.lastRunAt = row.lastRunAt ∧
    task.retryCount = row.retryCount

/-- What the `UPDATE` of a rollback does if it takes effect. -/
theorem row_of_rollback (hstep : step env τ.pre τ.action = some τ.post)
    (hruns : τ.runs? = some (tid, .scheduler (.dispatching pass d .rollingBack)))
    (hreturned : τ.returned env = true) :
    ∃ row, τ.pre.stores.tasks.find? d.task.id = some row ∧
      runningExecution (some row) = some d.executionId ∧
      τ.post.stores.tasks.find? d.task.id = some (Statement.assign τ.pre.stores.now
        (.completeTaskExecution d.task.id d.executionId taskScheduled d.task.nextRunAt
          d.task.lastRunAt d.task.retryCount) row) := by
  obtain ⟨-, row, hrow, hguard, hpost⟩ :=
    SystemTransition.rows_of_returned hstep hruns (fun _ => rfl) (fun _ => rfl) hreturned
  simp only [Statement.guard, Bool.and_eq_true, beq_iff_eq] at hguard
  exact ⟨row, hrow, runningExecution_eq_some.mpr ⟨row, rfl, hguard.2, hguard.1⟩, hpost⟩

/-- The row after the rollback is the row before the claim, if the rollback takes
effect on a row of the same definition and the scan was current, or if it takes
no effect on a row that has been restored before. -/
theorem restored_iff (hstep : step env τ.pre τ.action = some τ.post)
    (hruns : τ.runs? = some (tid, .scheduler (.dispatching pass d .rollingBack)))
    (hid : row₀.id = d.task.id) (hvalid : RowValid row₀)
    (hscheduled : row₀.status = taskScheduled) :
    τ.post.stores.tasks.find? d.task.id = some row₀ ↔
      τ.pre.stores.tasks.find? d.task.id = some row₀ ∨
        (τ.returned env = true ∧
          (τ.pre.stores.tasks.find? d.task.id).map TaskRow.definition = some row₀.definition ∧
          ScanCurrent d.task row₀) := by
  cases hreturned : τ.returned env with
  | false => simp [find?_of_not_returned hstep hreturned]
  | true =>
      obtain ⟨row, hrow, hrunning, hpost⟩ := row_of_rollback hstep hruns hreturned
      have hne : row ≠ row₀ := by
        rintro rfl
        rw [runningExecution_of_idle (by rw [hscheduled]; decide)] at hrunning
        cases hrunning
      have hids : row.id = row₀.id := (KeyedTable.key_of_find? hrow).trans hid.symm
      rw [hpost, hrow, Option.some.injEq, completed_eq_iff hids hvalid hscheduled]
      simp [hne, ScanCurrent]

/-- The claim of a dispatch at position `i` of a run and its rollback `j` steps
after it, with no cancel in between, as they can be tested. -/
def rollbackAt (env : Env) (id : String) (i j : Nat)
    (p : SystemTransition → Dispatch → SystemTransition → Bool) (l : List SystemTransition) :
    Bool :=
  match l[i]?, (l.drop (i + 1))[j]? with
  | some τc, some τb =>
      match τc.dispatchClaim? with
      | some (tid, _, d) =>
          τc.returned env && d.task.id == id && τb.runsAt tid Pc.rollsBack && p τc d τb &&
            ((l.drop (i + 1)).take j).all fun x =>
              !x.runsAt tid (fun pc => pc.claim?.isSome) && !x.cancels env id
      | none => false
  | _, _ => false

theorem exists_rollback {i j : Nat} {p : SystemTransition → Dispatch → SystemTransition → Bool}
    {l : List SystemTransition} (h : rollbackAt env id i j p l = true) :
    ∃ (before between after : List SystemTransition) (τc τb : SystemTransition) (tid : Nat)
        (pass : Pass) (d : Dispatch), l = before ++ τc :: (between ++ τb :: after) ∧
      τc.runs? = some (tid, .scheduler (.dispatching pass d .claiming)) ∧
      τc.returned env = true ∧ d.task.id = id ∧
      (∀ x ∈ between, x.runsAt tid (fun pc => pc.claim?.isSome) = false) ∧
      τb.runsAt tid Pc.rollsBack = true ∧ (∀ x ∈ between, x.cancels env id = false) ∧
      p τc d τb = true := by
  unfold rollbackAt at h
  split at h
  · rename_i τc τb hc hb
    split at h
    · rename_i tid pass d hclaim
      simp only [Bool.and_eq_true, beq_iff_eq, List.all_eq_true, Bool.not_eq_true'] at h
      obtain ⟨⟨⟨⟨hclaimed, hid⟩, hrollback⟩, hp⟩, hquiet⟩ := h
      refine ⟨l.take i, (l.drop (i + 1)).take j, (l.drop (i + 1)).drop (j + 1), τc, τb, tid, pass,
        d, ?_, SystemTransition.dispatchClaim?_eq_some hclaim, hclaimed, hid,
        fun x hx => (hquiet x hx).1, hrollback, fun x hx => (hquiet x hx).2, hp⟩
      rw [← eq_cut_of_getElem? hb]
      exact eq_cut_of_getElem? hc
    · cases h
  · cases h

/-- The renewer cannot reach Redis for the renewal that is due, and cancels the
dispatch. -/
def loseLease : List Action := [.run 1 { steadyMs := 20000 }, .run 1 { fault := true }, .run 1 {}]

/-- The scheduler claims the sample task, and has lost the lease before the closure
is handed to the pool. -/
def skippedRun : List Action :=
  [.boot 0 0 1] ++ runs 0 8 ++ loseLease ++ runs 0 4

/-- The same, but between the scan and the claim the task is executed by a
`RunTaskNow` that ends at second `11`. -/
def overtakenSkippedRun : List Action :=
  [.boot 0 0 1] ++ runs 0 2 ++ [.request 0 2 { request := .runTaskNow "t" } {}] ++ runs 2 2 ++
    List.replicate 3
      (.run 2 { clockMs := 11000, invocation := .remote (.response "worker" true "" "") }) ++
    runs 0 6 ++ loseLease ++ runs 0 4

end Corpcron
