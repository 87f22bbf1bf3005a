import Corpcron.System.LocalData
import Corpcron.System.Ownership

/-!
# Manual executions

`RunTaskNow` reads a task, claims it if it still has the status that was read,
calls the worker and completes the execution with the status, time and retry
count that were read.  The claim leaves the expected time empty, so nothing
compares the time and the retry count: whatever has been written to them
between the read and the claim is undone by the completion.
`manual_run_restores_iff` says exactly when nothing is undone.

The second half is about disabled tasks.  The claim overwrites the only record
of the status; the completion of the handler restores it, but a recovery, which
knows nothing of manual runs, makes the task scheduled, and so does a misfire
skip that has scanned the task before it was disabled.
`disabled_task_stays_disabled_iff` says that nothing else does.
-/

namespace Corpcron

open Lib

variable {env : Env} {s s₀ : State} {τ : SystemTransition} {trace : List SystemTransition}
  {tid : Nat} {inp : Input} {th : Thread} {id : String} {pc : Pc} {reply : Reply} {pf : Platform}
  {cfg : NodeConfig}

/-! ## `RunTaskNow` -/

/-- `RunTaskNow` before its `getTask`. -/
def Pc.readsForRun (id : String) : Pc → Bool
  | .handler (.runReading taskId) => taskId == id
  | _ => false

/-- `RunTaskNow` before its `claimTaskExecution`. -/
def Pc.claimsForRun (id : String) : Pc → Bool
  | .handler (.claiming m) => m.task.id == id
  | _ => false

/-- `RunTaskNow` before its `completeTaskExecution`. -/
def Pc.completesRun : Pc → Bool
  | .handler (.completing _ _ _ _) => true
  | _ => false

theorem Pc.readsForRun_iff :
    pc.readsForRun id = true ↔ pc = .handler (.runReading id) := by
  unfold Pc.readsForRun
  split <;> simp_all

theorem Pc.claimsForRun_iff :
    pc.claimsForRun id = true ↔ ∃ m, pc = .handler (.claiming m) ∧ m.task.id = id := by
  unfold Pc.claimsForRun
  split <;> simp_all

theorem Pc.completesRun_iff :
    pc.completesRun = true ↔
      ∃ m endTime outcome saved, pc = .handler (.completing m endTime outcome saved) := by
  unfold Pc.completesRun
  split <;> simp_all

/-- The handler of a `RunTaskNow` after its read: its local variables satisfy
`A`, or it has replied or died. -/
def CarriesRun (A : ManualRun → Prop) : Pc → Prop
  | .handler (.claiming m) => A m
  | .handler (.invoking m _) => A m
  | .handler (.recording m _ _ _) => A m
  | .handler (.completing m _ _ _) => A m
  | .handler (.abandoned m _) => A m
  | .handler (.replied _) => True
  | .dead => True
  | _ => False

theorem carriesRun_next {A : ManualRun → Prop} (h : CarriesRun A pc) :
    CarriesRun A (pc.next pf cfg inp reply) := by
  cases pc with
  | handler pc =>
      cases pc with
      | claiming m =>
          simp only [Pc.next, HandlerPc.next]
          split
          · exact h
          · trivial
      | invoking m startMs =>
          simp only [Pc.next, HandlerPc.next]
          split <;> exact h
      | recording m startMs endMs outcome => exact h
      | completing m endTime outcome historySaved => trivial
      | abandoned m response => exact h
      | replied response => trivial
      | _ => exact False.elim h
  | dead => trivial
  | _ => exact False.elim h

/-- After its read the handler carries the task that was read. -/
theorem carriesRun_of_read {stores : Stores} (p : Nat) (inp : Input) :
    CarriesRun (fun m => stores.tasks.getTask id = some m.task)
      (Thread.advance env inp stores ⟨p, .handler (.runReading id)⟩).pc := by
  simp only [Thread.advance, Pc.next, HandlerPc.next]
  rcases afterRunRead_cases inp
    (Thread.exec env inp stores ⟨p, .handler (.runReading id)⟩).2.task with
    ⟨response, hr⟩ | ⟨m, hread, -, hr⟩
  · rw [hr]
    trivial
  · rw [hr]
    rw [Thread.exec_db rfl] at hread
    split at hread
    · simp at hread
    · exact hread

/-- **What `RunTaskNow` does to the schedule.**  For the read, the successful
claim and the effective completion of one `RunTaskNow`: the row is left with
the status, time and retry count it had just before the claim exactly if its
time and retry count were then still those that had been read. -/
theorem manual_run_restores_iff {env : Env} {s₀ s : State}
    {before toClaim toComplete after : List SystemTransition} {τr τc τe : SystemTransition}
    {tid : Nat} {id : String}
    (hrun : Run (step env) s₀
      (before ++ τr :: (toClaim ++ τc :: (toComplete ++ τe :: after))) s)
    (hread : τr.runsAt tid (Pc.readsForRun id) = true)
    (hclaim : τc.runsAt tid (Pc.claimsForRun id) = true) (hclaimed : τc.returned env = true)
    (hcomplete : τe.runsAt tid Pc.completesRun = true)
    (hcompleted : τe.returned env = true) :
    ∃ rowRead rowBefore rowAfter, τr.pre.stores.tasks.find? id = some rowRead ∧
      τc.pre.stores.tasks.find? id = some rowBefore ∧
      τe.post.stores.tasks.find? id = some rowAfter ∧
      ((rowAfter.status = rowBefore.status ∧ rowAfter.nextRunAt = rowBefore.nextRunAt ∧
          rowAfter.retryCount = rowBefore.retryCount) ↔
        (rowBefore.nextRunAt = rowRead.nextRunAt ∧
          rowBefore.retryCount = rowRead.retryCount)) := by
  obtain ⟨pc, hread, hpc⟩ := SystemTransition.runsAt_iff.mp hread
  obtain rfl := Pc.readsForRun_iff.mp hpc
  obtain ⟨pc, hclaim, hpc⟩ := SystemTransition.runsAt_iff.mp hclaim
  obtain ⟨m, rfl, -⟩ := Pc.claimsForRun_iff.mp hpc
  obtain ⟨pc, hcomplete, hpc⟩ := SystemTransition.runsAt_iff.mp hcomplete
  obtain ⟨m', endTime, outcome, historySaved, rfl⟩ := Pc.completesRun_iff.mp hpc
  -- From the read to the claim the handler carries the task, from there the whole run.
  have htask : τr.pre.stores.tasks.getTask id = some m.task :=
    carried (P := CarriesRun _) hrun hread hclaim trivial (fun p inp _ _ => carriesRun_of_read p inp)
      (fun _ _ _ _ _ _ _ => carriesRun_next)
  have hrun' : Run (step env) s₀
      ((before ++ τr :: toClaim) ++ τc :: (toComplete ++ τe :: after)) s := by simpa using hrun
  have hsame : m' = m := by
    apply carried (P := CarriesRun (· = m)) hrun' hclaim hcomplete trivial
    · intro p inp _ _
      have hm : CarriesRun (· = m) (.handler (.claiming m)) := rfl
      exact carriesRun_next hm
    · exact fun _ _ _ _ _ _ _ => carriesRun_next
  subst hsame
  obtain ⟨rowRead, hrowRead, hm, hid⟩ := TaskTable.of_getTask htask
  obtain ⟨-, hstepClaim, hrest⟩ := hrun'.split
  obtain ⟨cfg, rowBefore, hrowBefore, hguard, -⟩ :=
    SystemTransition.rows_of_returned hstepClaim hclaim (fun _ => rfl) (fun _ => rfl) hclaimed
  obtain ⟨-, rowDuring, -, -, hrowAfter⟩ :=
    SystemTransition.rows_of_returned hrest.split.2.1 hcomplete (fun _ => rfl) (fun _ => rfl)
      hcompleted
  simp only [Statement.taskId, hid] at hrowBefore hrowAfter
  refine ⟨rowRead, rowBefore, _, hrowRead, hrowBefore, hrowAfter, ?_⟩
  -- The claim compares the status, and nothing compares the other two columns.
  have hstatus : m'.task.status = rowBefore.status := (claim_guard.mp hguard).1.symm
  have hnext : m'.task.nextRunAt = rowRead.nextRunAt := by rw [hm]; rfl
  have hretry : m'.task.retryCount = rowRead.retryCount := by rw [hm]; rfl
  simp only [Statement.assign, hstatus, hnext, hretry, true_and]
  constructor <;> exact fun h => ⟨h.1.symm, h.2.symm⟩

/-- A `RunTaskNow` for the sample task that nobody interferes with. -/
def manualRun : List Action :=
  [.boot 0 0 1, .request 0 2 { request := .runTaskNow "t" } {}] ++ runs 2 5

theorem manual_run_restores_iff_alone :
    ∃ (before toClaim toComplete after : List SystemTransition) (τr τc τe : SystemTransition)
        (s : State), Run (step sampleEnv) sampleState
        (before ++ τr :: (toClaim ++ τc :: (toComplete ++ τe :: after))) s ∧
      ∃ rowBefore rowAfter, τc.pre.stores.tasks.find? "t" = some rowBefore ∧
        τe.post.stores.tasks.find? "t" = some rowAfter ∧
        rowAfter.status = rowBefore.status ∧ rowAfter.nextRunAt = rowBefore.nextRunAt ∧
        rowAfter.retryCount = rowBefore.retryCount := by
  obtain ⟨s, hrun⟩ := exists_run_of_isSome
    (show (execute (step sampleEnv) sampleState manualRun).isSome = true by decide)
  generalize htrace : executeTrace (step sampleEnv) sampleState manualRun = trace at hrun
  obtain ⟨τr, hcut, hread⟩ := exists_cut_of_getElem? (l := trace) 2
    (p := fun τ => SystemTransition.runsAt 2 (Pc.readsForRun "t") τ &&
      τ.pre.stores.tasks.find? "t" == some (insertedRow 0 sampleTask)) (by subst htrace; decide)
  obtain ⟨τc, hcut', hclaim⟩ := exists_cut_of_getElem? (l := trace.drop 3) 0
    (p := fun τ => SystemTransition.runsAt 2 (Pc.claimsForRun "t") τ &&
      SystemTransition.returned sampleEnv τ &&
      τ.pre.stores.tasks.find? "t" == some (insertedRow 0 sampleTask)) (by subst htrace; decide)
  obtain ⟨τe, hcut'', hcomplete⟩ := exists_cut_of_getElem? (l := (trace.drop 3).drop 1) 2
    (p := fun τ => SystemTransition.runsAt 2 Pc.completesRun τ &&
      SystemTransition.returned sampleEnv τ) (by subst htrace; decide)
  simp only [Bool.and_eq_true, beq_iff_eq] at hread hclaim hcomplete
  rw [hcut, hcut', hcut''] at hrun
  obtain ⟨rowRead, rowBefore, rowAfter, hrowRead, hrowBefore, hrowAfter, hiff⟩ :=
    manual_run_restores_iff hrun hread.1 hclaim.1.1 hclaim.1.2 hcomplete.1 hcomplete.2
  refine ⟨_, _, _, _, τr, τc, τe, s, hrun, rowBefore, rowAfter, hrowBefore, hrowAfter, hiff.mpr ?_⟩
  rw [hread.2, Option.some.injEq] at hrowRead
  rw [hclaim.2, Option.some.injEq] at hrowBefore
  rw [← hrowRead, ← hrowBefore]
  exact ⟨rfl, rfl⟩

/-- A `RunTaskNow` reads the sample task; then the scheduler claims, executes
and completes it, and only after that the `RunTaskNow` goes on. -/
def overtakenManualRun : List Action :=
  [.boot 0 0 1, .request 0 2 { request := .runTaskNow "t" } {}] ++ runs 2 1 ++ runs 0 9 ++
    [.run 0 { fresh := 3 }] ++ executes 3 11000 9 ++ runs 2 4

/-- The scheduler has moved the task on to time `20`; the manual completion
moves it back to the occurrence at `10`, which has been executed. -/
theorem manual_run_moves_schedule_back :
    ∃ (env : Env) (s₀ s : State) (before toClaim toComplete after : List SystemTransition)
        (τr τc τe : SystemTransition) (tid : Nat) (id : String), Run (step env) s₀
        (before ++ τr :: (toClaim ++ τc :: (toComplete ++ τe :: after))) s ∧
      (∀ tid, s₀.threads tid = none) ∧ τr.runsAt tid (Pc.readsForRun id) = true ∧
      τc.runsAt tid (Pc.claimsForRun id) = true ∧ τc.returned env = true ∧
      τe.runsAt tid Pc.completesRun = true ∧ τe.returned env = true ∧
      (τc.pre.stores.tasks.find? id).map TaskRow.nextRunAt = some (some 20) ∧
      (τe.post.stores.tasks.find? id).map TaskRow.nextRunAt = some (some 10) := by
  obtain ⟨s, hrun⟩ := exists_run_of_isSome
    (show (execute (step sampleEnv) sampleState overtakenManualRun).isSome = true by decide)
  generalize htrace : executeTrace (step sampleEnv) sampleState overtakenManualRun = trace at hrun
  obtain ⟨τr, hcut, hread⟩ := exists_cut_of_getElem? (l := trace) 2
    (p := SystemTransition.runsAt 2 (Pc.readsForRun "t")) (by subst htrace; decide)
  obtain ⟨τc, hcut', hclaim⟩ := exists_cut_of_getElem? (l := trace.drop 3) 19
    (p := fun τ => SystemTransition.runsAt 2 (Pc.claimsForRun "t") τ &&
      SystemTransition.returned sampleEnv τ &&
      (τ.pre.stores.tasks.find? "t").map TaskRow.nextRunAt == some (some 20))
    (by subst htrace; decide)
  obtain ⟨τe, hcut'', hcomplete⟩ := exists_cut_of_getElem? (l := (trace.drop 3).drop 20) 2
    (p := fun τ => SystemTransition.runsAt 2 Pc.completesRun τ &&
      SystemTransition.returned sampleEnv τ &&
      (τ.post.stores.tasks.find? "t").map TaskRow.nextRunAt == some (some 10))
    (by subst htrace; decide)
  simp only [Bool.and_eq_true, beq_iff_eq] at hclaim hcomplete
  rw [hcut, hcut', hcut''] at hrun
  exact ⟨sampleEnv, sampleState, s, _, _, _, _, τr, τc, τe, 2, "t", hrun, fun _ => rfl, hread,
    hclaim.1.1, hclaim.1.2, hcomplete.1.1, hcomplete.1.2, hclaim.2, hcomplete.2⟩

/-! ## Disabled tasks -/

/-- The requests that do not schedule a task. -/
def Request.leavesDisabled : Request → Bool
  | .runTaskNow _ => true
  | .cancelTask _ _ => true
  | .deleteTask _ => true
  | .enableTask _ enabled _ => !enabled
  | _ => false

/-- The program counters of a run with such requests only. -/
def UnscheduledPc : Pc → Prop
  | .handler (.submitting _ _) => False
  | .handler (.updateReading _) => False
  | .handler (.updating _ _) => False
  | .handler (.enableReading _ enabled _) => enabled = false
  | .handler (.enabling _ _) => False
  | _ => True

theorem unscheduledPc_next (h : UnscheduledPc pc) : UnscheduledPc (pc.next pf cfg inp reply) := by
  cases pc with
  | handler pc =>
      cases pc with
      | submitting task idle => exact False.elim h
      | updateReading info => exact False.elim h
      | updating task idle => exact False.elim h
      | enabling task nextRunAt => exact False.elim h
      | enableReading taskId enabled text =>
          simp only [Pc.next, HandlerPc.next]
          rcases afterEnableRead_cases pf inp taskId enabled text reply.task with
            ⟨response, hr⟩ | ⟨-, hr⟩ | ⟨task, next, -, henabled, -⟩
          · rw [hr]
            trivial
          · rw [hr]
            trivial
          · rw [h] at henabled
            cases henabled
      | deleteReading taskId =>
          simp only [Pc.next, HandlerPc.next]
          rcases afterDeleteRead_cases taskId reply.task with ⟨response, hr⟩ | hr <;> rw [hr] <;>
            trivial
      | runReading taskId =>
          simp only [Pc.next, HandlerPc.next]
          rcases afterRunRead_cases inp reply.task with ⟨response, hr⟩ | ⟨m, -, -, hr⟩ <;>
            rw [hr] <;> trivial
      | _ =>
          simp only [Pc.next, HandlerPc.next]
          (repeat' split) <;> trivial
  | _ => trivial

theorem unscheduledPc_of_run (hrun : Run (step env) s₀ trace s)
    (hstart : ∀ tid, s₀.threads tid = none)
    (hrequests : ∀ τ ∈ trace, τ.action.request?.all Request.leavesDisabled = true) :
    ∀ tid th, s.threads tid = some th → UnscheduledPc th.pc := by
  apply threads_invariant (P := fun _ pc => UnscheduledPc pc) hrun hstart
  · exact fun _ => trivial
  · exact fun _ => ⟨trivial, trivial⟩
  · intro τ hτ p tid call inp haction
    have hrequest := hrequests τ hτ
    simp only [haction, Action.request?, Option.all_some] at hrequest
    have hbegins := beginCall_begins env.platform (env.node p) inp call
    generalize beginCall env.platform (env.node p) inp call = pc at hbegins
    generalize call.request = request at hbegins hrequest
    cases hbegins with
    | enable taskId enabled =>
        have hdisable : enabled = false := by simpa [Request.leavesDisabled] using hrequest
        exact hdisable
    | submit cronExpr params handler task idle => simp [Request.leavesDisabled] at hrequest
    | update info => simp [Request.leavesDisabled] at hrequest
    | _ => trivial
  · exact fun _ _ _ _ _ _ => trivial
  · exact fun _ _ _ _ _ _ _ hpc => unscheduledPc_next hpc

/-- The transition is a recovery or a misfire skip that makes the task
scheduled. -/
def SystemTransition.reschedules (env : Env) (id : String) (τ : SystemTransition) : Bool :=
  match statement? env τ.pre τ.action with
  | some (.recoverTaskExecution target _) => target == id && τ.returned env
  | some (.updateTaskRuntime target status _ _ _) =>
      target == id && status == taskScheduled && τ.returned env
  | _ => false

/-- A successful claim of the task by `RunTaskNow` with the execution id `e`. -/
def ClaimedManually (env : Env) (id e : String) (trace : List SystemTransition) : Prop :=
  ∃ τ ∈ trace, ∃ tid, τ.runsAt tid (Pc.claimsForRun id) = true ∧ τ.claimed? env id = some e

/-- The task is disabled, or runs under a manual execution that found it
disabled: every thread that has claimed it with that id expected it so. -/
def ManuallyRun (env : Env) (id : String) (trace : List SystemTransition) (s : State) : Prop :=
  ∀ row, s.stores.tasks.find? id = some row → row.status = taskDisabled ∨
    ∃ e, runningExecution (some row) = some e ∧ ClaimedManually env id e trace ∧
      ∀ tid th c, s.threads tid = some th → th.pc.claimed = some c → c.task.id = id →
        c.executionId = e → c.expectedStatus = taskDisabled

/-- A thread that completes the running execution expected a disabled task. -/
theorem ManuallyRun.expected (h : ManuallyRun env id trace s) {c : Claim} {r : TaskRow}
    (hth : s.threads tid = some th) (hclaimed : th.pc.claimed = some c) (hid : c.task.id = id)
    (hr : s.stores.tasks.find? id = some r) (hrun : r.status = taskRunning)
    (hexec : r.currentExecutionId = some c.executionId) : c.expectedStatus = taskDisabled := by
  rcases h r hr with hdisabled | ⟨e, he, -, hexpected⟩
  · rw [hrun] at hdisabled
    exact absurd hdisabled (by decide)
  · have hsame : runningExecution (some r) = some c.executionId :=
      runningExecution_eq_some.mpr ⟨r, rfl, hrun, hexec⟩
    rw [he, Option.some.injEq] at hsame
    exact hexpected tid th c hth hclaimed hid hsame.symm

/-- If no recovery and no misfire skip makes it scheduled, the task is disabled
after a step that leaves it idle. -/
theorem disabled_step {row : TaskRow} (hstep : step env τ.pre τ.action = some τ.post)
    (hpcs : ∀ tid th, τ.pre.threads tid = some th → UnscheduledPc th.pc)
    (hquiet : τ.reschedules env id = false) (hpre : ManuallyRun env id trace τ.pre)
    (hrow : τ.post.stores.tasks.find? id = some row) (hidle : row.status ≠ taskRunning) :
    row.status = taskDisabled := by
  have hkept : τ.pre.stores.tasks.find? id = some row → row.status = taskDisabled := by
    intro hsame
    rcases hpre row hsame with hdisabled | ⟨e, he, -⟩
    · exact hdisabled
    · rw [runningExecution_of_idle hidle] at he
      cases he
  rcases row_of_step hstep id with hsame | ⟨stmt, hstmt, hreturned, rfl⟩
  · exact hkept (hsame.symm.trans hrow)
  · obtain ⟨tid, inp, ⟨p, pc⟩, haction, hth, -, hissues⟩ := issuer_of_statement hstmt
    have hpc := hpcs tid _ hth
    have hfound : stmt.isUpdate = true → ∃ r, τ.pre.stores.tasks.find? stmt.taskId = some r ∧
        stmt.guard τ.pre.stores.now r = true ∧ row = stmt.assign τ.pre.stores.now r := by
      intro hupdate
      obtain ⟨r, hr, hguard, hpost⟩ :=
        SystemTransition.post_of_returned hstep hstmt hupdate hreturned
      exact ⟨r, hr, hguard, Option.some.inj (hrow.symm.trans hpost)⟩
    cases hissues with
    | recover rest task =>
        simp [SystemTransition.reschedules, hstmt, hreturned, Statement.taskId] at hquiet
    | skip pass skip =>
        obtain ⟨r, -, -, rfl⟩ := hfound rfl
        rcases skip.idle with hdisabled | hscheduled
        · exact hdisabled
        · simp [SystemTransition.reschedules, hstmt, hreturned, MisfireSkip.statement,
            Statement.taskId, hscheduled] at hquiet
    | claim pass d =>
        obtain ⟨r, -, -, rfl⟩ := hfound rfl
        exact absurd rfl hidle
    | rollBack pass d =>
        obtain ⟨r, hr, hguard, rfl⟩ := hfound rfl
        obtain ⟨hrun, hexec⟩ := complete_guard.mp hguard
        exact hpre.expected (c := d.claim) hth rfl rfl hr hrun hexec
    | complete d endTime next =>
        obtain ⟨r, hr, hguard, rfl⟩ := hfound rfl
        obtain ⟨hrun, hexec⟩ := complete_guard.mp hguard
        -- The scheduler claims scheduled tasks only, so this execution is not its own.
        have hexpected := hpre.expected (c := d.claim) hth rfl rfl hr hrun hexec
        exact absurd hexpected (show taskScheduled ≠ taskDisabled by decide)
    | manualComplete m endTime outcome historySaved =>
        obtain ⟨r, hr, hguard, rfl⟩ := hfound rfl
        obtain ⟨hrun, hexec⟩ := complete_guard.mp hguard
        exact hpre.expected (c := m.claim) hth rfl rfl hr hrun hexec
    | manualClaim m =>
        obtain ⟨r, -, -, rfl⟩ := hfound rfl
        exact absurd rfl hidle
    | cancel taskId failure =>
        obtain ⟨r, -, -, rfl⟩ := hfound rfl
        rfl
    | delete taskId =>
        have hgone := SystemTransition.post_of_delete hstep hstmt hreturned
        cases hgone.symm.trans hrow
    | _ => exact False.elim hpc

/-- A claim that expects a disabled task is one of `RunTaskNow`. -/
theorem runsAt_of_claim_disabled {e node : String} {next : Option DateTime}
    (hstmt : statement? env τ.pre τ.action = some (.claimTaskExecution id e node taskDisabled next)) :
    ∃ tid, τ.runsAt tid (Pc.claimsForRun id) = true := by
  obtain ⟨tid, inp, ⟨p, pc⟩, haction, hth, -, hissues⟩ := issuer_of_statement hstmt
  generalize hexpected : taskDisabled = expected at hissues
  cases hissues with
  | claim pass d => exact absurd hexpected (by decide)
  | manualClaim m =>
      refine ⟨tid, SystemTransition.runsAt_iff.mpr ⟨.handler (.claiming m), ?_, ?_⟩⟩
      · exact SystemTransition.runs?_eq_some.mpr ⟨inp, p, haction, hth⟩
      · simp [Pc.claimsForRun]

/-- One step keeps the task disabled or manually run. -/
theorem manuallyRun_step (hstep : step env τ.pre τ.action = some τ.post)
    (hpcs : ∀ tid th, τ.pre.threads tid = some th → UnscheduledPc th.pc)
    (hfresh : ∀ e, τ.claimed? env id = some e → ∀ tid th c, τ.pre.threads tid = some th →
      th.pc.claimed = some c → c.task.id = id → c.executionId ≠ e)
    (hquiet : τ.reschedules env id = false) (hpre : ManuallyRun env id trace τ.pre) :
    ManuallyRun env id (trace ++ [τ]) τ.post := by
  intro row hrow
  by_cases hrun : row.status = taskRunning
  · right
    rcases running_step hstep hrow hrun with
      hsame | ⟨e, node, expected, next, r, hstmt, hr, hguard, rfl⟩
    · rcases hpre row hsame with hdisabled | ⟨e, he, ⟨y, hy, hmanual⟩, hexpected⟩
      · rw [hrun] at hdisabled
        exact absurd hdisabled (by decide)
      · refine ⟨e, he, ⟨y, List.mem_append_left _ hy, hmanual⟩, ?_⟩
        intro tid th c hth hclaimed hid hexec
        rcases claimed_step hstep hth hclaimed with ⟨tid₀, th₀, hth₀, hold⟩ | ⟨node, hstmt, hok⟩
        · exact hexpected tid₀ th₀ c hth₀ hold hid hexec
        · -- A claim does not succeed on a running row.
          rw [hid, hsame] at hok
          rw [(claim_runningExecution (statement_issued hstmt) hok).1] at he
          cases he
    · have hidle : IdleStatus expected := statement_issued hstmt
      have hstatus := (claim_guard.mp hguard).1
      have hdisabled : expected = taskDisabled := by
        rcases hpre r hr with hdisabled | ⟨e', he', -⟩
        · rw [← hstatus, hdisabled]
        · rw [← hstatus] at hidle
          rw [runningExecution_of_idle hidle.ne_running] at he'
          cases he'
      subst hdisabled
      have hclaim := claimed?_of_guard hstmt hr hguard
      obtain ⟨tid, hruns⟩ := runsAt_of_claim_disabled hstmt
      refine ⟨e, rfl, ⟨τ, by simp, tid, hruns, hclaim⟩, ?_⟩
      intro tid' th c hth hclaimed hid hexec
      rcases claimed_step hstep hth hclaimed with ⟨tid₀, th₀, hth₀, hold⟩ | ⟨node', hstmt', -⟩
      · exact absurd hexec (hfresh e hclaim tid₀ th₀ c hth₀ hold hid)
      · rw [hstmt, Option.some.injEq] at hstmt'
        injection hstmt' with _ _ _ hexpected
        exact hexpected.symm
  · exact Or.inl (disabled_step hstep hpcs hquiet hpre hrow hrun)

/-- Along a run without such recoveries and skips the task stays disabled or
manually run. -/
theorem manuallyRun_of_run {m : State} {before after : List SystemTransition}
    (hbefore : Run (step env) s₀ before m) (hafter : Run (step env) m after s)
    (hstart : ∀ tid, s₀.threads tid = none)
    (hrequests : ∀ x ∈ before ++ after, x.action.request?.all Request.leavesDisabled = true)
    (hdistinct : (claimedIds env id (before ++ after)).Nodup)
    (hquiet : ∀ x ∈ after, x.reschedules env id = false) (hinit : ManuallyRun env id [] m) :
    ManuallyRun env id after s := by
  apply hafter.history_invariant hinit
  intro earlier x hinitial hearlier hstep hpre
  have hpast : Run (step env) s₀ (before ++ earlier) x.pre := hbefore.append hearlier
  have hpart : (before ++ earlier) ++ [x] <+: before ++ after := by
    rw [List.append_assoc]
    exact List.prefix_append_right_inj before |>.mpr hinitial
  have hmem : ∀ y ∈ before ++ earlier, y ∈ before ++ after :=
    fun y hy => hpart.subset (List.mem_append_left _ hy)
  apply manuallyRun_step hstep _ _ (hquiet x (hinitial.subset (by simp))) hpre
  · exact unscheduledPc_of_run hpast hstart (fun y hy => hrequests y (hmem y hy))
  · intro e hclaim tid th c hth hclaimed hid
    exact claimed_fresh hpast hstart (claimedIds_nodup_initial hpart hdistinct) hclaim hth hclaimed
      hid

/-- What a transition that reschedules the task leaves. -/
theorem scheduled_of_reschedules (hstep : step env τ.pre τ.action = some τ.post)
    (h : τ.reschedules env id = true) :
    ∃ row, τ.post.stores.tasks.find? id = some row ∧ row.status = taskScheduled := by
  unfold SystemTransition.reschedules at h
  split at h
  · rename_i target e hstmt
    simp only [Bool.and_eq_true, beq_iff_eq] at h
    obtain ⟨rfl, hreturned⟩ := h
    obtain ⟨row, -, -, hrow⟩ := SystemTransition.post_of_returned hstep hstmt rfl hreturned
    exact ⟨_, hrow, rfl⟩
  · rename_i target status next last retry hstmt
    simp only [Bool.and_eq_true, beq_iff_eq] at h
    obtain ⟨⟨rfl, hstatus⟩, hreturned⟩ := h
    obtain ⟨row, -, -, hrow⟩ := SystemTransition.post_of_returned hstep hstmt rfl hreturned
    exact ⟨_, hrow, hstatus⟩
  · cases h

theorem not_reschedules_of_claim (hclaim : τ.runsAt tid (Pc.claimsForRun id) = true)
    (hclaimed : τ.returned env = true) :
    τ.reschedules env id = false := by
  obtain ⟨pc, hruns, hpc⟩ := SystemTransition.runsAt_iff.mp hclaim
  obtain ⟨m, rfl, -⟩ := Pc.claimsForRun_iff.mp hpc
  obtain ⟨inp, p, haction, hth⟩ := SystemTransition.runs?_eq_some.mp hruns
  obtain ⟨hstmt, -⟩ := SystemTransition.statement_of_returned
    (SystemTransition.thread?_eq_some.mpr ⟨tid, inp, haction, hth⟩) rfl hclaimed
  simp [SystemTransition.reschedules, hstmt]

/-- **A disabled task and its manual runs.**  In a run without `EnableTask`,
`UpdateTask` and `SubmitTask` in which the successful claims of the task carry
distinct execution ids, let `RunTaskNow` claim the task while it is disabled.
From then on the task is disabled or runs under a manual execution, whatever
crashes, exactly if no recovery and no misfire skip makes it scheduled. -/
theorem disabled_task_stays_disabled_iff {env : Env} {s₀ s : State}
    {before after : List SystemTransition} {τ : SystemTransition} {tid : Nat} {id : String}
    (hrun : Run (step env) s₀ (before ++ τ :: after) s)
    (hstart : ∀ tid, s₀.threads tid = none)
    (hrequests : ∀ x ∈ before ++ τ :: after,
      x.action.request?.all Request.leavesDisabled = true)
    (hdistinct : (claimedIds env id (before ++ τ :: after)).Nodup)
    (hclaim : τ.runsAt tid (Pc.claimsForRun id) = true) (hclaimed : τ.returned env = true)
    (hdisabled : (τ.pre.stores.tasks.find? id).map TaskRow.status = some taskDisabled) :
    (∀ x ∈ after, ∀ row, x.post.stores.tasks.find? id = some row →
        row.status = taskDisabled ∨ (row.status = taskRunning ∧
          ∃ e, row.currentExecutionId = some e ∧ ClaimedManually env id e (τ :: after))) ↔
      ∀ x ∈ after, x.reschedules env id = false := by
  obtain ⟨hbefore, hstep, hlater⟩ := hrun.split
  constructor
  · intro hproperty x hx
    rw [Bool.eq_false_iff]
    intro hreschedules
    obtain ⟨row, hrow, hscheduled⟩ := scheduled_of_reschedules (hlater.step_of_mem hx) hreschedules
    rcases hproperty x hx row hrow with h | ⟨h, -⟩ <;> rw [hscheduled] at h <;>
      exact absurd h (by decide)
  · -- The invariant starts before the claim, when the row is disabled.
    intro hquiet x hx row hrow
    obtain ⟨earlier, later, rfl⟩ := List.append_of_mem hx
    have hupto : Run (step env) τ.pre (τ :: (earlier ++ [x])) x.post := by
      obtain ⟨hearlier, hxstep, -⟩ := hlater.split
      have hfirst : Run (step env) τ.pre ([] ++ [τ]) τ.post := Run.snoc Run.nil hstep
      simpa using hfirst.append (Run.snoc hearlier hxstep)
    have hpart : before ++ τ :: (earlier ++ [x]) <+: before ++ τ :: (earlier ++ x :: later) :=
      ⟨later, by simp⟩
    have hpartAfter : earlier ++ [x] ⊆ earlier ++ x :: later := by simp
    have hinit : ManuallyRun env id [] τ.pre := by
      intro r hr
      rw [hr, Option.map_some, Option.some.injEq] at hdisabled
      exact Or.inl hdisabled
    have hmanual : ManuallyRun env id (τ :: (earlier ++ [x])) x.post := by
      apply manuallyRun_of_run hbefore hupto hstart
        (fun y hy => hrequests y (hpart.subset hy)) (claimedIds_nodup_initial hpart hdistinct) _ hinit
      intro y hy
      rcases List.mem_cons.mp hy with rfl | hy
      · exact not_reschedules_of_claim hclaim hclaimed
      · exact hquiet y (hpartAfter hy)
    rcases hmanual row hrow with h | ⟨e, he, ⟨y, hy, hmanual⟩, -⟩
    · exact Or.inl h
    · obtain ⟨_, ⟨⟩, hstatus, hexec⟩ := runningExecution_eq_some.mp he
      exact Or.inr ⟨hstatus, e, hexec, y, List.cons_subset_cons τ hpartAfter hy, hmanual⟩

/-- The sample state with a disabled task. -/
def disabledState : State where
  stores :=
    { now := 10
      tasks := TaskTable.execute KeyedTable.empty 0
        (.addTask { sampleTask with status := taskDisabled }) }
  threads _ := none

theorem disabled_task_stays_disabled_iff_alone :
    ∃ (before after : List SystemTransition) (τ : SystemTransition) (s : State),
      Run (step sampleEnv) disabledState (before ++ τ :: after) s ∧ τ.returned sampleEnv = true ∧
      after ≠ [] ∧ ∀ x ∈ after, ∀ row, x.post.stores.tasks.find? "t" = some row →
        row.status = taskDisabled ∨ (row.status = taskRunning ∧
          ∃ e, row.currentExecutionId = some e ∧
            ClaimedManually sampleEnv "t" e (τ :: after)) := by
  obtain ⟨s, hrun⟩ := exists_run_of_isSome
    (show (execute (step sampleEnv) disabledState manualRun).isSome = true by decide)
  generalize htrace : executeTrace (step sampleEnv) disabledState manualRun = trace at hrun
  obtain ⟨τ, hcut, hτ⟩ := exists_cut_of_getElem? (l := trace) 3
    (p := fun τ => SystemTransition.runsAt 2 (Pc.claimsForRun "t") τ &&
      SystemTransition.returned sampleEnv τ &&
      (τ.pre.stores.tasks.find? "t").map TaskRow.status == some taskDisabled)
    (by subst htrace; decide)
  have hrequests : trace.all (fun x => x.action.request?.all Request.leavesDisabled) = true := by
    subst htrace; decide
  have hdistinct : (claimedIds sampleEnv "t" trace).Nodup := by subst htrace; decide
  have hquiet : (trace.drop 4).all (fun x => !SystemTransition.reschedules sampleEnv "t" x) = true
      ∧ (trace.drop 4).isEmpty = false := by
    subst htrace; decide
  simp only [List.all_eq_true, Bool.not_eq_true', List.isEmpty_eq_false_iff] at hrequests hquiet
  simp only [Bool.and_eq_true, beq_iff_eq] at hτ
  rw [hcut] at hrun hrequests hdistinct
  refine ⟨_, _, τ, s, hrun, hτ.1.2, hquiet.2, ?_⟩
  exact (disabled_task_stays_disabled_iff hrun (fun _ => rfl) hrequests hdistinct hτ.1.1 hτ.1.2
    hτ.2).mpr hquiet.1

/-- A `RunTaskNow` on node `a` claims the disabled task and `a` crashes; node
`b` recovers the stale execution. -/
def crashedManualRun : List Action :=
  [.boot 0 0 1, .request 0 2 { request := .runTaskNow "t" } {}] ++ runs 2 2 ++
    [.crash 0, .dbClock 200, .boot 1 3 4] ++ runs 3 3

/-- The recovery cannot know that the task was disabled, and schedules it. -/
theorem recovery_schedules_disabled_task :
    ∃ (env : Env) (s₀ s : State) (before after : List SystemTransition) (τ : SystemTransition)
        (tid : Nat) (id : String), Run (step env) s₀ (before ++ τ :: after) s ∧
      (∀ tid, s₀.threads tid = none) ∧
      (∀ x ∈ before ++ τ :: after, x.action.request?.all Request.leavesDisabled = true) ∧
      (claimedIds env id (before ++ τ :: after)).Nodup ∧
      τ.runsAt tid (Pc.claimsForRun id) = true ∧ τ.returned env = true ∧
      (τ.pre.stores.tasks.find? id).map TaskRow.status = some taskDisabled ∧
      ∃ x ∈ after, (x.post.stores.tasks.find? id).map TaskRow.status = some taskScheduled := by
  obtain ⟨s, hrun⟩ := exists_run_of_isSome
    (show (execute (step sampleEnv) disabledState crashedManualRun).isSome = true by decide)
  generalize htrace : executeTrace (step sampleEnv) disabledState crashedManualRun = trace at hrun
  obtain ⟨τ, hcut, hτ⟩ := exists_cut_of_getElem? (l := trace) 3
    (p := fun τ => SystemTransition.runsAt 2 (Pc.claimsForRun "t") τ &&
      SystemTransition.returned sampleEnv τ &&
      (τ.pre.stores.tasks.find? "t").map TaskRow.status == some taskDisabled)
    (by subst htrace; decide)
  have hrequests : trace.all (fun x => x.action.request?.all Request.leavesDisabled) = true := by
    subst htrace; decide
  have hdistinct : (claimedIds sampleEnv "t" trace).Nodup := by subst htrace; decide
  have hscheduled : (trace.drop 4).any (fun x =>
      (x.post.stores.tasks.find? "t").map TaskRow.status == some taskScheduled) = true := by
    subst htrace; decide
  simp only [List.all_eq_true] at hrequests
  simp only [List.any_eq_true, beq_iff_eq] at hscheduled
  simp only [Bool.and_eq_true, beq_iff_eq] at hτ
  rw [hcut] at hrun hrequests hdistinct
  exact ⟨sampleEnv, disabledState, s, _, _, τ, 2, "t", hrun, fun _ => rfl, hrequests, hdistinct,
    hτ.1.1, hτ.1.2, hτ.2, hscheduled⟩

end Corpcron
