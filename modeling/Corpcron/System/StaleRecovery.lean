import Corpcron.Rpc.CallTiming
import Corpcron.System.LockHolders
import Corpcron.System.Ownership

/-!
# Stale recovery and live executions

`recoverStaleExecutions` takes the lock of a task as the sign that nobody is
executing it.  A dispatch and its closure do hold that lock until they have
completed, so recovery never takes over an execution of a live scheduler.  A
manual execution holds no lock: recovery takes it over as soon as its row is
older than the stale timeout, whether or not the handler is still waiting for
its worker.

The stale timeout makes up for the missing lock if no scan for stale rows ever
meets a manual execution in progress.  `recovery_spares_live_iff` has the exact
condition on the state and this one on runs, and `not_scansManualRun_of_calls`
says which timeouts of the worker calls suffice for it.
-/

namespace Corpcron

open Lib Lib.LockStore

variable {env : Env} {s₀ s : State} {earlier trace : List SystemTransition} {τ : SystemTransition}
  {a : Action} {id e : String} {tid p : Nat} {inp : Input}

/-! ## Live executions -/

/-- The manual execution a handler has claimed and not yet completed. -/
def Pc.manualRun? : Pc → Option ManualRun
  | .handler (.invoking m _) => some m
  | .handler (.recording m _ _ _) => some m
  | .handler (.completing m _ _ _) => some m
  | .handler (.abandoned m _) => some m
  | _ => none

/-- A thread of a live process has claimed the execution and not yet called
`completeTaskExecution`. -/
def LiveExecution (s : State) (id e : String) : Prop :=
  ∃ tid th c, s.threads tid = some th ∧ (s.stores.procs th.proc).alive = true ∧
    th.pc.claimed = some c ∧ c.task.id = id ∧ c.executionId = e

/-- The thread is the handler of a `RunTaskNow`. -/
def LiveManualRun (s : State) (id e : String) : Prop :=
  ∃ tid th m, s.threads tid = some th ∧ (s.stores.procs th.proc).alive = true ∧
    th.pc.manualRun? = some m ∧ m.task.id = id ∧ m.executionId = e

/-- A manual run has its claim. -/
theorem Pc.claimed_of_manualRun {pc : Pc} {m : ManualRun} (h : pc.manualRun? = some m) :
    pc.claimed = some m.claim := by
  unfold Pc.manualRun? at h
  split at h <;> cases h <;> rfl

/-- A claim is that of a manual run, or comes with the lock of the task. -/
theorem Pc.holds_of_claimed {pc : Pc} {c : Claim} (recovery : Bool) (nodeId : String)
    (h : pc.claimed = some c) :
    (∃ m, pc.manualRun? = some m ∧ c = m.claim) ∨
      ∃ v, pc.holds recovery nodeId = some ("lock:" ++ lockKey c.task.id, v) := by
  unfold Pc.claimed at h
  split at h <;> cases h <;> first
    | exact Or.inr ⟨_, rfl⟩
    | exact Or.inl ⟨_, rfl, rfl⟩

/-- Who executes a `recoverTaskExecution`. -/
theorem recovering_of_statement
    (h : statement? env s a = some (.recoverTaskExecution id e)) :
    ∃ tid inp p rest task, a = .run tid inp ∧
      s.threads tid = some ⟨p, .scheduler (.recovery rest task .recovering)⟩ ∧
      task.id = id ∧ task.currentExecutionId = e := by
  obtain ⟨tid, inp, ⟨p, pc⟩, haction, hth, -, hissues⟩ := issuer_of_statement h
  cases hissues with
  | recover rest task => exact ⟨tid, inp, p, rest, task, haction, hth, rfl, rfl⟩

/-- A recovery and a dispatch or closure of the same task do not meet, as both
hold its lock. -/
theorem not_holds_of_recovering
    (hrun : Run (step env) s₀ trace s) (hstart : ∀ tid, s₀.threads tid = none)
    (hkept : ∀ x ∈ trace, LockKept true env x) {tid tid' p : Nat} {th : Thread}
    {rest : List TaskMeta} {task : TaskMeta} {c : Claim} {v : String}
    (hrecovery : s.threads tid = some ⟨p, .scheduler (.recovery rest task .recovering)⟩)
    (hth : s.threads tid' = some th) (hclaimed : th.pc.claimed = some c)
    (hid : c.task.id = task.id) :
    th.pc.holds true (env.node th.proc).nodeId ≠ some ("lock:" ++ lockKey c.task.id, v) := by
  intro hheld
  -- Recoveries count as holders here, so the two threads would share one lock.
  have hexclusive := exclusive_of_run hrun hstart (Or.inl rfl) hkept
  have hsame : tid = tid' := by
    apply hexclusive.unique tid tid' ("lock:" ++ lockKey task.id)
      (recoveryLockValue (env.node p).nodeId task) v
    · exact holding_of_thread hrecovery
    · rw [holding_of_thread hth, hheld, hid]
  subst hsame
  rw [hrecovery, Option.some.injEq] at hth
  subst hth
  cases hclaimed

/-- A live execution that recovery reaches is a manual one. -/
theorem liveManualRun_of_recovering
    (hrun : Run (step env) s₀ trace s)
    (hstart : ∀ tid, s₀.threads tid = none) (hkept : ∀ x ∈ trace, LockKept true env x)
    (hτ : τ ∈ trace)
    (hrecover : statement? env τ.pre τ.action = some (.recoverTaskExecution id e))
    (hlive : LiveExecution τ.pre id e) : LiveManualRun τ.pre id e := by
  obtain ⟨tid, th, c, hth, halive, hclaimed, hid, hexec⟩ := hlive
  rcases Pc.holds_of_claimed true (env.node th.proc).nodeId hclaimed with
    ⟨m, hm, rfl⟩ | ⟨v, hheld⟩
  · exact ⟨tid, th, m, hth, halive, hm, hid, hexec⟩
  · obtain ⟨runner, inp, p, rest, task, -, hrecovery, htask, -⟩ :=
      recovering_of_statement hrecover
    obtain ⟨earlier, hearlier, hinitial⟩ := hrun.pre_of_mem hτ
    exact absurd hheld (not_holds_of_recovering hearlier hstart
      (fun x hx => hkept x (hinitial.subset hx)) hrecovery hth hclaimed (hid.trans htask.symm))

/-! ## Manual runs within the stale timeout -/

/-- The execution ids that the row of a task has had by the end of a run: the
one it starts with, and those of its successful claims. -/
def knownIds (env : Env) (s₀ : State) (id : String) (trace : List SystemTransition) :
    List String :=
  (runningExecution (s₀.stores.tasks.find? id)).toList ++ claimedIds env id trace

theorem knownIds_append (env : Env) (s₀ : State) (id : String) (trace : List SystemTransition)
    (τ : SystemTransition) :
    knownIds env s₀ id (trace ++ [τ]) =
      knownIds env s₀ id trace ++ (τ.claimed? env id).toList := by
  rw [knownIds, claimedIds_append, ← List.append_assoc, knownIds]

/-- A part of a run has distinct ids if the run has. -/
theorem knownIds_nodup_initial {id : String}
    {earlier trace : List SystemTransition} (hinitial : earlier <+: trace)
    (h : (knownIds env s₀ id trace).Nodup) : (knownIds env s₀ id earlier).Nodup :=
  h.sublist ((List.Sublist.refl _).append (hinitial.sublist.filterMap _))

/-- A running row runs under one of these ids. -/
theorem running_known
    (hrun : Run (step env) s₀ trace s) :
    runningExecution (s.stores.tasks.find? id) = some e → e ∈ knownIds env s₀ id trace := by
  apply hrun.history_invariant (P := fun trace s =>
    runningExecution (s.stores.tasks.find? id) = some e → e ∈ knownIds env s₀ id trace)
  · intro hrunning
    simp [knownIds, hrunning]
  · intro earlier τ _ _ hstep hpre hrunning
    rw [knownIds_append, List.mem_append]
    obtain ⟨row, hrow, hstatus, hexec⟩ := runningExecution_eq_some.mp hrunning
    rcases running_step hstep hrow hstatus with
      hsame | ⟨e', node, expected, next, r, hstmt, hr, hguard, rfl⟩
    · left
      apply hpre
      rw [hsame, ← hrow]
      exact hrunning
    · right
      rw [claimed?_of_guard hstmt hr hguard]
      simpa [Statement.assign, eq_comm] using hexec

/-- No handler has the manual execution in progress. -/
def NoManualRun (s : State) (id e : String) : Prop :=
  ∀ tid th m, s.threads tid = some th → th.pc.manualRun? = some m → m.task.id = id →
    m.executionId ≠ e

/-- A handler comes to have a manual execution only by its claim. -/
theorem Pc.manualRun?_next {pf : Platform} {cfg : NodeConfig} {reply : Reply}
    {pc : Pc} {m : ManualRun} (h : (pc.next pf cfg inp reply).manualRun? = some m) :
    pc.manualRun? = some m ∨ (reply.ok = true ∧ pc = .handler (.claiming m)) := by
  have hinjective : ∀ m' : ManualRun, m'.claim = m.claim → m' = m := by
    rintro ⟨task, e, idle⟩ heq
    obtain ⟨task', e', idle'⟩ := m
    injection heq with htask hexec
    dsimp only at htask hexec
    subst htask hexec
    rfl
  cases pc with
  | handler pc =>
      rcases HandlerPc.claimed_next (Pc.claimed_of_manualRun h) with hold | ⟨hok, m', rfl, heq⟩
      · left
        rcases Pc.holds_of_claimed false "" hold with ⟨m', hm', heq⟩ | ⟨v, hheld⟩
        · rw [hm', hinjective m' heq.symm]
        · simp [Pc.holds] at hheld
      · rw [hinjective m' heq.symm]
        exact Or.inr ⟨hok, rfl⟩
  | _ => simp [Pc.next, Pc.manualRun?] at h

/-- A step does not bring back a manual execution whose id is known. -/
theorem noManualRun_step
    (hstep : step env τ.pre τ.action = some τ.post)
    (hdistinct : (knownIds env s₀ id (earlier ++ [τ])).Nodup)
    (hknown : e ∈ knownIds env s₀ id earlier) (hpre : NoManualRun τ.pre id e) :
    NoManualRun τ.post id e := by
  intro tid th m hth hm hid hexec
  cases threadOrigin hstep hth with
  | kept hbefore hidle => exact hpre tid th m hbefore hm hid hexec
  | moved inp th₀ haction hbefore heq =>
      subst heq
      rcases Pc.manualRun?_next hm with hold | ⟨hok, hclaiming⟩
      · exact hpre tid th₀ m hbefore hold hid hexec
      · -- The id has just been used for a claim, a second time.
        have haccess : th₀.access env = .db (.update (.claimTaskExecution m.task.id m.executionId
            (env.node th₀.proc).dispatchNode m.task.status none)) := by
          rw [Thread.access, hclaiming]
          rfl
        obtain ⟨hstmt, haffected⟩ := Thread.exec_ok hbefore haccess hok
        have hclaim : τ.claimed? env id = some e := by
          rw [← haction] at hstmt
          subst hid hexec
          exact SystemTransition.claimed?_of_affected hstmt haffected
        rw [knownIds_append, hclaim] at hdistinct
        exact (List.nodup_append.mp hdistinct).2.2 e hknown e (by simp) rfl
  | spawned inp parent th₀ d haction hparent hspawn hname hfresh heq =>
      subst heq
      cases hm
  | killed p th₀ haction hbefore heq =>
      subst heq
      cases hm
  | booted p scheduler renewer haction hname hfresh heq =>
      rcases heq with rfl | rfl <;> cases hm
  | called p call inp haction hfresh heq =>
      subst heq
      have hnone := beginCall_claimed env.platform (env.node p) inp call
      rw [Pc.claimed_of_manualRun hm] at hnone
      cases hnone

/-- The stale tasks a scheduler thread has scanned and not yet dealt with. -/
def Pc.staleTasks : Pc → List TaskMeta
  | .scheduler (.recovery rest task _) => task :: rest
  | _ => []

theorem recoverRest_staleTasks (rest : List TaskMeta) :
    (Pc.scheduler (recoverRest rest)).staleTasks = rest := by
  cases rest <;> rfl

/-- The scanned tasks come from the scan. -/
theorem Pc.staleTasks_next {pf : Platform} {cfg : NodeConfig} {reply : Reply}
    {pc : Pc} {task : TaskMeta} (h : task ∈ (pc.next pf cfg inp reply).staleTasks) :
    task ∈ pc.staleTasks ∨ (pc = .scheduler .scanningStale ∧ task ∈ reply.tasks) := by
  cases pc with
  | scheduler pc =>
      cases pc with
      | scanningStale =>
          right
          simpa [Pc.next, SchedulerPc.next, recoverRest_staleTasks] using h
      | recovery rest first stage =>
          left
          cases stage with
          | locking =>
              simp only [Pc.next, SchedulerPc.next] at h
              split at h
              · exact h
              · rw [recoverRest_staleTasks] at h
                exact List.mem_cons_of_mem _ h
          | recovering => exact h
          | unlocking =>
              simp only [Pc.next, SchedulerPc.next, recoverRest_staleTasks] at h
              exact List.mem_cons_of_mem _ h
      | iterating pass =>
          simp only [Pc.next, SchedulerPc.next, Pass.begin] at h
          (repeat' split at h) <;> simp [Pc.staleTasks] at h
      | dispatching pass d stage =>
          cases stage <;> simp only [Pc.next, SchedulerPc.next, DispatchStage.next] at h <;>
            (repeat' split at h) <;> simp [Pc.staleTasks] at h
      | skipping pass skip =>
          simp only [Pc.next, SchedulerPc.next] at h
          split at h <;> simp [Pc.staleTasks] at h
      | sleeping =>
          simp only [Pc.next, SchedulerPc.next] at h
          split at h <;> simp [Pc.staleTasks] at h
      | _ => simp [Pc.next, SchedulerPc.next, Pc.staleTasks] at h
  | _ => simp [Pc.next, Pc.staleTasks] at h

/-- A scan for stale rows that meets a manual execution in progress. -/
def SystemTransition.scansManualRun (env : Env) (τ : SystemTransition) : Prop :=
  ∃ tid inp p id row e, τ.action = .run tid inp ∧
    τ.pre.threads tid = some ⟨p, .scheduler .scanningStale⟩ ∧
    τ.pre.stores.tasks.find? id = some row ∧
    TaskTable.isStale τ.pre.stores.now (env.node p).staleAfterSec row = true ∧
    row.currentExecutionId = some e ∧ LiveManualRun τ.pre id e

/-- What a scan has returned: the execution of a valid running row, which is no
manual execution in progress unless the scan meets one. -/
theorem stale_of_scan
    {task : TaskMeta}
    (hrun : Run (step env) s₀ earlier τ.pre) (hstart : ∀ tid, s₀.threads tid = none)
    (hrows : ∀ id, RowsValid (τ.pre.stores.tasks.find? id))
    (hprompt : ¬τ.scansManualRun env) (haction : τ.action = .run tid inp)
    (hth : τ.pre.threads tid = some ⟨p, .scheduler .scanningStale⟩)
    (htask : task ∈ (Thread.exec env inp τ.pre.stores ⟨p, .scheduler .scanningStale⟩).2.tasks) :
    task.currentExecutionId ∈ knownIds env s₀ task.id earlier ∧
      NoManualRun τ.pre task.id task.currentExecutionId := by
  rw [Thread.exec_db rfl] at htask
  split at htask
  · simp at htask
  · obtain ⟨row, hrow, hstale, heq⟩ := TaskTable.of_mem_getStaleRunningTasks htask
    have hstatus : row.status = taskRunning := by
      simp only [TaskTable.isStale, Bool.and_eq_true, beq_iff_eq] at hstale
      exact hstale.1
    obtain ⟨e, he⟩ := exists_runningExecution (hrows _ row hrow) hstatus
    obtain ⟨_, ⟨⟩, -, hexec⟩ := runningExecution_eq_some.mp he
    have hid : task.currentExecutionId = e := by
      rw [heq]
      simp [taskFromResult, hexec]
    rw [hid]
    constructor
    · apply running_known hrun
      rw [hrow]
      exact he
    · intro tid' th m hth' hm hmid hmexec
      apply hprompt
      have halive := alive_of_thread hrun hstart tid' th hth' (by
        intro hdead
        rw [hdead] at hm
        cases hm)
      exact ⟨tid, inp, p, task.id, row, e, haction, hth, hrow, hstale, hexec, tid', th, m, hth',
        halive, hm, hmid, hmexec⟩

/-- If no scan meets a manual execution in progress, no scanned task belongs to
one. -/
theorem stale_not_manual
    (hrun : Run (step env) s₀ trace s) (hstart : ∀ tid, s₀.threads tid = none)
    (hrows : ∀ id, RowsValid (s₀.stores.tasks.find? id))
    (hdistinct : ∀ id, (knownIds env s₀ id trace).Nodup)
    (hprompt : ∀ x ∈ trace, ¬x.scansManualRun env) :
    ∀ tid th task, s.threads tid = some th → task ∈ th.pc.staleTasks →
      task.currentExecutionId ∈ knownIds env s₀ task.id trace ∧
        NoManualRun s task.id task.currentExecutionId := by
  apply hrun.history_invariant (P := fun trace s => ∀ tid th task, s.threads tid = some th →
    task ∈ th.pc.staleTasks → task.currentExecutionId ∈ knownIds env s₀ task.id trace ∧
      NoManualRun s task.id task.currentExecutionId)
  · intro tid th task hth
    simp [hstart] at hth
  · intro earlier τ hinitial hearlier hstep hpre tid th task hth htask
    -- A step keeps what is known of a task that was scanned by the state before it.
    have hkeep : task.currentExecutionId ∈ knownIds env s₀ task.id earlier ∧
        NoManualRun τ.pre task.id task.currentExecutionId →
        task.currentExecutionId ∈ knownIds env s₀ task.id (earlier ++ [τ]) ∧
          NoManualRun τ.post task.id task.currentExecutionId := by
      rintro ⟨hknown, hmanual⟩
      have hdistinct := knownIds_nodup_initial hinitial (hdistinct task.id)
      refine ⟨?_, noManualRun_step hstep hdistinct hknown hmanual⟩
      rw [knownIds_append]
      exact List.mem_append_left _ hknown
    apply hkeep
    cases threadOrigin hstep hth with
    | kept hbefore hidle => exact hpre tid th task hbefore htask
    | moved inp th₀ haction hbefore heq =>
        subst heq
        rcases Pc.staleTasks_next htask with hold | ⟨hscan, hreply⟩
        · exact hpre tid th₀ task hbefore hold
        · obtain ⟨p, pc⟩ := th₀
          dsimp only at hscan
          subst hscan
          exact stale_of_scan hearlier hstart (fun id => rowsValid_run hearlier (hrows id))
            (hprompt τ (hinitial.subset (by simp))) haction hbefore hreply
    | spawned inp parent th₀ d haction hparent hspawn hname hfresh heq =>
        subst heq
        cases htask
    | killed p th₀ haction hbefore heq =>
        subst heq
        cases htask
    | booted p scheduler renewer haction hname hfresh heq =>
        rcases heq with rfl | rfl <;> cases htask
    | called p call inp haction hfresh heq =>
        subst heq
        cases htask

/-- If no scan meets a manual execution in progress, no recovery reaches one. -/
theorem not_liveManualRun_of_prompt (hrun : Run (step env) s₀ trace s)
    (hstart : ∀ tid, s₀.threads tid = none)
    (hrows : ∀ id, RowsValid (s₀.stores.tasks.find? id))
    (hdistinct : ∀ id, (knownIds env s₀ id trace).Nodup)
    (hprompt : ∀ x ∈ trace, ¬x.scansManualRun env) (hτ : τ ∈ trace)
    (hrecover : statement? env τ.pre τ.action = some (.recoverTaskExecution id e)) :
    ¬LiveManualRun τ.pre id e := by
  rintro ⟨tid, th, m, hth, -, hm, hid, hexec⟩
  obtain ⟨runner, inp, p, rest, task, -, hrecovery, rfl, rfl⟩ := recovering_of_statement hrecover
  obtain ⟨earlier, hearlier, hinitial⟩ := hrun.pre_of_mem hτ
  obtain ⟨-, hnone⟩ := stale_not_manual hearlier hstart hrows
    (fun id => knownIds_nodup_initial hinitial (hdistinct id))
    (fun x hx => hprompt x (hinitial.subset hx)) runner _ task hrecovery List.mem_cons_self
  exact hnone tid th m hth hm hid hexec

/-- If manual executions are over before a scan finds their rows stale, recovery
takes over no live execution. -/
theorem recovery_spares_prompt_runs {env : Env} {s₀ s : State} {trace : List SystemTransition}
    {τ : SystemTransition} {id e : String} (hrun : Run (step env) s₀ trace s)
    (hstart : ∀ tid, s₀.threads tid = none)
    (hrows : ∀ id, RowsValid (s₀.stores.tasks.find? id))
    (hkept : ∀ x ∈ trace, LockKept true env x)
    (hdistinct : ∀ id, (knownIds env s₀ id trace).Nodup)
    (hprompt : ∀ x ∈ trace, ¬x.scansManualRun env) (hτ : τ ∈ trace)
    (hrecover : statement? env τ.pre τ.action = some (.recoverTaskExecution id e)) :
    ¬LiveExecution τ.pre id e := by
  intro hlive
  have hmanual := liveManualRun_of_recovering hrun hstart hkept hτ hrecover hlive
  exact not_liveManualRun_of_prompt hrun hstart hrows hdistinct hprompt hτ hrecover hmanual

/-- In a run with statements about one task no other task is claimed. -/
theorem claimedIds_eq_nil {target : String} (hne : id ≠ target)
    (htargets : ∀ x ∈ trace,
      (statement? env x.pre x.action).all (fun stmt => stmt.taskId == target) = true) :
    claimedIds env id trace = [] := by
  refine List.filterMap_eq_nil_iff.mpr fun x hx => ?_
  have htarget := htargets x hx
  unfold SystemTransition.claimed?
  split
  · rename_i claimed e node expected next hstmt
    rw [hstmt] at htarget
    refine if_neg fun hclaim => hne ?_
    exact hclaim.1.symm.trans (beq_iff_eq.mp htarget)
  · rfl

/-- Node `a` has claimed the sample task for a `RunTaskNow` when node `b` scans for
stale rows, and ends it.  Then its scheduler claims the task, it crashes, the lock
expires, and node `b` recovers the execution. -/
def promptRun : List Action :=
  [.boot 0 0 1, .request 0 2 { request := .runTaskNow "t" } {}] ++ runs 2 2 ++ [.boot 1 3 4] ++
    runs 3 1 ++ runs 2 3 ++ runs 0 8 ++ [.crash 0, .redisClock 60, .dbClock 200] ++ runs 3 6

theorem exists_promptRun :
    ∃ (trace : List SystemTransition) (x τ : SystemTransition) (s : State),
      Run (step sampleEnv) sampleState trace s ∧ (∀ x ∈ trace, LockKept true sampleEnv x) ∧
      (∀ id, (knownIds sampleEnv sampleState id trace).Nodup) ∧
      (∀ x ∈ trace, ¬x.scansManualRun sampleEnv) ∧
      x ∈ trace ∧ LiveManualRun x.pre "t" "manual:t:" ∧ τ ∈ trace ∧
      statement? sampleEnv τ.pre τ.action = some (.recoverTaskExecution "t" "t:0:0") ∧
      τ.returned sampleEnv = true := by
  obtain ⟨s, hrun⟩ := exists_run_of_isSome
    (show (execute (step sampleEnv) sampleState promptRun).isSome = true by decide)
  have hkept := lockKept_of_keepsLocks (r := true) (n := 5) hrun (fun _ => rfl) (by decide)
    (by decide)
  generalize htrace : executeTrace (step sampleEnv) sampleState promptRun = trace at hrun hkept
  obtain ⟨x, hcut, hx⟩ := exists_cut_of_getElem? (l := trace) 5
    (p := fun x => (x.pre.threads 2).any fun th => (x.pre.stores.procs th.proc).alive &&
      th.pc.manualRun?.any fun m => m.task.id == "t" && m.executionId == "manual:t:")
    (by subst htrace; decide)
  obtain ⟨τ, hcut', hτ⟩ := exists_cut_of_getElem? (l := trace) 25
    (p := fun τ => SystemTransition.returned sampleEnv τ &&
      statement? sampleEnv τ.pre τ.action == some (.recoverTaskExecution "t" "t:0:0"))
    (by subst htrace; decide)
  have hnames : ∀ x ∈ trace, ∀ tid ∈ x.action.starts, tid < 5 := by subst htrace; decide
  have htargets : ∀ x ∈ trace,
      (statement? sampleEnv x.pre x.action).all (fun stmt => stmt.taskId == "t") = true := by
    subst htrace
    decide
  have hyoung : ∀ x ∈ trace, ((List.range 5).all fun tid =>
      (x.pre.threads tid).all fun th => th.pc.manualRun?.isNone) = true ∨
      (x.pre.stores.tasks.rows.all fun row => !TaskTable.isStale x.pre.stores.now 120 row) =
        true := by
    subst htrace
    decide
  simp only [Option.any_eq_true, Bool.and_eq_true, beq_iff_eq] at hx hτ
  obtain ⟨th, hth, halive, m, hm, hid, hexec⟩ := hx
  refine ⟨trace, x, τ, s, hrun, hkept, ?_, ?_, by rw [hcut]; simp,
    ⟨2, th, m, hth, halive, hm, hid, hexec⟩, by rw [hcut']; simp, hτ.2, hτ.1⟩
  · intro id
    by_cases hid : id = "t"
    · subst hid htrace
      decide
    · have hrow : sampleState.stores.tasks.find? id = none := by
        rw [KeyedTable.find?_eq_none_iff, sampleState_rows]
        simpa [insertedRow, sampleTask] using hid
      rw [knownIds, hrow, claimedIds_eq_nil hid htargets]
      exact List.nodup_nil
  · rintro x hx ⟨-, -, p, id, row, e, -, -, hrow, hstale, -, tid, th, m, hth, -, hm, -⟩
    rcases hyoung x hx with hcheck | hcheck
    · obtain ⟨earlier, hearlier, hinitial⟩ := hrun.pre_of_mem hx
      have hnone := threads_all_of_run hearlier (fun _ => rfl)
        (fun y hy => hnames y (hinitial.subset hy)) hcheck tid th hth
      simp [hm] at hnone
    · have hfresh := List.all_eq_true.mp hcheck row (KeyedTable.mem_of_find? hrow)
      rw [show (sampleEnv.node p).staleAfterSec = 120 from rfl] at hstale
      simp [hstale] at hfresh

theorem sampleState_rowsValid (id : String) : RowsValid (sampleState.stores.tasks.find? id) :=
  fun row hrow => sampleState_valid row (KeyedTable.mem_of_find? hrow)

theorem recovery_spares_prompt_runs_crashed :
    ∃ (trace : List SystemTransition) (x τ : SystemTransition) (s : State),
      Run (step sampleEnv) sampleState trace s ∧ x ∈ trace ∧
      LiveManualRun x.pre "t" "manual:t:" ∧ τ ∈ trace ∧
      statement? sampleEnv τ.pre τ.action = some (.recoverTaskExecution "t" "t:0:0") ∧
      ¬LiveExecution τ.pre "t" "t:0:0" := by
  obtain ⟨trace, x, τ, s, hrun, hkept, hdistinct, hprompt, hx, hmanual, hτ, hrecover, -⟩ :=
    exists_promptRun
  exact ⟨trace, x, τ, s, hrun, hx, hmanual, hτ, hrecover, recovery_spares_prompt_runs hrun
    (fun _ => rfl) sampleState_rowsValid hkept hdistinct hprompt hτ hrecover⟩

/-- A worker call that was begun at `startMs` has had a turn at most `lagMs` before
`nowMs`.  All attempts of `invokeWorker`, as those of `executeTask`, share one
deadline, which is taken at most `lagMs` after the start; the first turn is not
later than that after the deadline, and the turns are no further apart. -/
def WorkerCallAt (cfg : NodeConfig) (lagMs startMs nowMs : Nat) : Prop :=
  ∃ (options : CallTiming.CallOptions) (start : Nat) (connected : Bool) (serialId : UInt32)
    (requestData : List UInt8) (net : CallTiming.Net),
    options.ensureDeadline start ≤
      1000000 * (startMs + cfg.effectiveTimeoutMs.toNat + lagMs) ∧
    CallTiming.Timely (options.ensureDeadline start) (1000000 * lagMs)
      (options.ensureDeadline start + 1000000 * lagMs) net.turns ∧
    ∃ t ∈ CallTiming.spentTurns net.turns
        (CallTiming.call options start connected serialId requestData net),
      1000000 * nowMs ≤ t.now + 1000000 * lagMs

theorem WorkerCallAt.now_le {cfg : NodeConfig} {lagMs startMs nowMs : Nat}
    (h : WorkerCallAt cfg lagMs startMs nowMs) :
    nowMs ≤ startMs + cfg.effectiveTimeoutMs.toNat + 3 * lagMs := by
  obtain ⟨options, start, connected, serialId, requestData, net, hdeadline, htimely, t, ht, hnow⟩ :=
    h
  have hspent := (CallTiming.call_accounts options start connected serialId requestData net).spent_le
    htimely t ht
  omega

/-- Scans meet no manual execution whose worker call is in progress, if the timeout
of the call is so much shorter than the stale timeout that the delays and the
difference of the clocks fit between the two. -/
theorem not_scansManualRun_of_calls {lagMs : Nat} {skewSec : Int}
    (hcalls : ∀ tid th m, τ.pre.threads tid = some th → th.pc.manualRun? = some m →
      ∃ startMs nowMs, WorkerCallAt (env.node th.proc) lagMs startMs nowMs ∧
        ∀ row started, τ.pre.stores.tasks.find? m.task.id = some row →
          row.currentExecutionId = some m.executionId → row.startedAt = some started →
          1000 * (τ.pre.stores.now - started - skewSec) ≤ (nowMs : Int) - startMs)
    (htimeouts : ∀ p q, (env.node p).effectiveTimeoutMs + 3 * lagMs <
      1000 * ((env.node q).staleAfterSec - skewSec)) : ¬τ.scansManualRun env := by
  rintro ⟨-, -, q, id, row, e, -, -, hrow, hstale, hexec, tid, th, m, hth, -, hm, rfl, rfl⟩
  obtain ⟨startMs, nowMs, hcall, hage⟩ := hcalls tid th m hth hm
  simp only [TaskTable.isStale, Bool.and_eq_true, Option.any_eq_true, decide_eq_true_eq] at hstale
  obtain ⟨-, started, hstarted, hold⟩ := hstale
  have hyoung := hage row started hrow hexec hstarted
  dsimp only [DateTime] at hold hyoung
  have hnow := hcall.now_le
  have hdistance := htimeouts th.proc q
  have htimeout : 0 < (env.node th.proc).effectiveTimeoutMs := by
    unfold NodeConfig.effectiveTimeoutMs
    split <;> omega
  omega

/-- Nodes that wait five minutes for a worker. -/
def patientEnv : Env := { sampleEnv with
  node := fun p => { nodeId := if p = 0 then "a" else "b", taskTimeoutMs := 300000 } }

/-- Node `a` claims the sample task for a `RunTaskNow` at second `10` and waits for
the worker; at second `200` node `b` recovers the execution. -/
def slowManualRun : List Action :=
  [.boot 0 0 1, .request 0 2 { request := .runTaskNow "t" } {}] ++ executes 2 10000 2 ++
    [.dbClock 200, .boot 1 3 4] ++ runs 3 3

/-- The handler of the `RunTaskNow` waits for the worker since second `10`. -/
def invokesSample (s : State) : Bool :=
  match s.threads 2 with
  | some ⟨0, .handler (.invoking m 10000)⟩ => m.task.id == "t" && m.executionId == "manual:t:"
  | _ => false

theorem of_invokesSample (h : invokesSample s = true) :
    ∃ m, s.threads 2 = some ⟨0, .handler (.invoking m 10000)⟩ ∧ m.task.id = "t" ∧
      m.executionId = "manual:t:" := by
  unfold invokesSample at h
  split at h
  · simp only [Bool.and_eq_true, beq_iff_eq] at h
    exact ⟨_, ‹_›, h⟩
  · cases h

end Corpcron
