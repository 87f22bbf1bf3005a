import Corpcron.System.TableInvariant

/-!
# Claims and the threads that made them

After a successful claim a thread carries what it read of the task and the
execution id it claimed with, until it has called `completeTaskExecution`; the
closure takes this over from the scheduler thread that enqueued it.
`Pc.claimed` is that data.

Execution ids are what ties a `RUNNING` row to the thread that claimed it.  If
the successful claims of a row carry pairwise distinct ids, the row of a thread
that has claimed it is the row its own claim produced, as long as it runs under
the thread's id (`fromClaim_of_run`).
-/

namespace Corpcron

open Lib

variable {env : Env} {s s' s₀ : State} {a : Action} {τ : SystemTransition}
  {trace : List SystemTransition} {tid : Nat} {inp : Input} {th : Thread} {stmt : Statement}
  {pf : Platform} {cfg : NodeConfig} {reply : Reply} {c : Claim}

/-! ## Claims in progress -/

/-- The arguments of a claim, with the task they were taken from. -/
structure Claim where
  task : TaskMeta
  executionId : String
  expectedStatus : Int
  expectedNextRunAt : Option DateTime

/-- The claim of a dispatch compares status and schedule. -/
def Dispatch.claim (d : Dispatch) : Claim :=
  ⟨d.task, d.executionId, taskScheduled, d.task.nextRunAt⟩

/-- The claim of a manual execution compares the status only. -/
def ManualRun.claim (m : ManualRun) : Claim :=
  ⟨m.task, m.executionId, m.task.status, none⟩

/-- The successful claim a thread has made and not yet completed. -/
def Pc.claimed : Pc → Option Claim
  | .scheduler (.dispatching _ d .checking) => some d.claim
  | .scheduler (.dispatching _ d .enqueueing) => some d.claim
  | .scheduler (.dispatching _ d (.unregistering true)) => some d.claim
  | .scheduler (.dispatching _ d (.removingLease true)) => some d.claim
  | .scheduler (.dispatching _ d .rollingBack) => some d.claim
  | .execution d .queued => some d.claim
  | .execution d (.checking _) => some d.claim
  | .execution d (.calling _) => some d.claim
  | .execution d (.recording _ _ _) => some d.claim
  | .execution d (.choosing _ _) => some d.claim
  | .execution d (.completing _ _) => some d.claim
  | .handler (.invoking m _) => some m.claim
  | .handler (.recording m _ _ _) => some m.claim
  | .handler (.completing m _ _ _) => some m.claim
  | .handler (.abandoned m _) => some m.claim
  | _ => none

theorem recoverRest_claimed (rest : List TaskMeta) :
    (Pc.scheduler (recoverRest rest)).claimed = none := by
  cases rest <;> rfl

theorem Pass.begin_claimed (pf : Platform) (cfg : NodeConfig) (inp : Input) (pass : Pass) :
    (Pc.scheduler (pass.begin pf cfg inp)).claimed = none := by
  unfold Pass.begin
  split
  · rfl
  · split
    · rfl
    · split
      · rfl
      · rfl
      · dsimp only
        split <;> rfl

theorem beginCall_claimed (pf : Platform) (cfg : NodeConfig) (inp : Input) (call : Call) :
    (Pc.handler (beginCall pf cfg inp call)).claimed = none := by
  have hbegins := beginCall_begins pf cfg inp call
  generalize beginCall pf cfg inp call = pc at hbegins
  generalize call.request = request at hbegins
  cases hbegins <;> rfl

/-- A handler comes to have a claim only by its claim. -/
theorem HandlerPc.claimed_next {pc : HandlerPc}
    (h : (Pc.handler (pc.next pf cfg inp reply)).claimed = some c) :
    (Pc.handler pc).claimed = some c ∨
      (reply.ok = true ∧ ∃ m : ManualRun, pc = .claiming m ∧ c = m.claim) := by
  cases pc with
  | updateReading info =>
      rcases afterUpdateRead_cases pf inp info reply.task with ⟨r, hr⟩ | ⟨_, _, _, -, hr⟩ <;>
        simp [next, hr, Pc.claimed] at h
  | enableReading taskId enabled text =>
      rcases afterEnableRead_cases pf inp taskId enabled text reply.task with
        ⟨r, hr⟩ | ⟨-, hr⟩ | ⟨_, _, -, -, hr⟩ <;> simp [next, hr, Pc.claimed] at h
  | deleteReading taskId =>
      rcases afterDeleteRead_cases taskId reply.task with ⟨r, hr⟩ | hr <;>
        simp [next, hr, Pc.claimed] at h
  | runReading taskId =>
      rcases afterRunRead_cases inp reply.task with ⟨r, hr⟩ | ⟨_, -, -, hr⟩ <;>
        simp [next, hr, Pc.claimed] at h
  | updating task idle =>
      rcases afterUpdate_cases reply task.id with ⟨r, hr⟩ | hr <;>
        simp [next, hr, Pc.claimed] at h
  | enabling task nextRunAt =>
      rcases afterUpdate_cases reply task.id with ⟨r, hr⟩ | hr <;>
        simp [next, hr, Pc.claimed] at h
  | canceling taskId text failure =>
      cases hok : reply.ok <;> cases hfailed : reply.failed <;>
        simp [next, hok, hfailed, Pc.claimed] at h
  | claiming m =>
      cases hok : reply.ok with
      | false => simp [next, hok, Pc.claimed] at h
      | true =>
          simp only [next, hok, if_true, Pc.claimed, Option.some.injEq] at h
          exact Or.inr ⟨rfl, m, rfl, h.symm⟩
  | invoking m startMs =>
      left
      simp only [next] at h
      split at h <;> exact h
  | recording m startMs endMs outcome => exact Or.inl h
  | abandoned m response => exact Or.inl h
  | completing m endTime outcome historySaved => simp [next, Pc.claimed] at h
  | replied response => simp [next, Pc.claimed] at h
  | cancelingRegistered text => simp [next, Pc.claimed] at h
  | submitting task idle => cases hok : reply.ok <;> simp [next, hok, Pc.claimed] at h
  | rechecking taskId => cases hok : reply.ok <;> simp [next, hok, Pc.claimed] at h
  | recheckingCancel taskId text failure =>
      cases hok : reply.ok <;> simp [next, hok, Pc.claimed] at h
  | deleting taskId => cases hok : reply.ok <;> simp [next, hok, Pc.claimed] at h

/-- A scheduler thread comes to have a claim only by its claim, and loses it
when it enqueues the closure. -/
theorem SchedulerPc.claimed_next {pc : SchedulerPc}
    (h : (Pc.scheduler (pc.next pf cfg inp reply)).claimed = some c) :
    (Pc.scheduler pc).claimed = some c ∨
      (reply.ok = true ∧ ∃ pass d, pc = .dispatching pass d .claiming ∧ c = d.claim) := by
  cases pc with
  | recovery rest task stage =>
      cases stage with
      | locking =>
          cases hok : reply.ok with
          | false => simp [next, hok, recoverRest_claimed] at h
          | true => simp [next, hok, Pc.claimed] at h
      | recovering => simp [next, Pc.claimed] at h
      | unlocking => simp [next, recoverRest_claimed] at h
  | dispatching pass d stage =>
      cases stage with
      | claiming =>
          cases hok : reply.ok with
          | false => simp [next, DispatchStage.next, hok, Pc.claimed] at h
          | true =>
              simp only [next, DispatchStage.next, hok, if_true, Pc.claimed,
                Option.some.injEq] at h
              exact Or.inr ⟨rfl, pass, d, rfl, h.symm⟩
      | locking =>
          cases hok : reply.ok <;> cases htimeout : inp.timedOut <;>
            simp [next, DispatchStage.next, hok, htimeout, Pc.claimed] at h
      | checking =>
          left
          cases hok : reply.ok <;> simpa [next, DispatchStage.next, hok, Pc.claimed] using h
      | enqueueing =>
          -- Once enqueued, the claim is the closure's.
          left
          cases henqueued : inp.enqueued <;>
            simp [next, DispatchStage.next, henqueued, Pc.claimed] at h
          simpa [Pc.claimed] using h
      | unregistering claimed =>
          cases claimed with
          | false => simp [next, DispatchStage.next, Pc.claimed] at h
          | true => exact Or.inl h
      | removingLease claimed =>
          cases claimed with
          | false => simp [next, DispatchStage.next, Pc.claimed] at h
          | true => exact Or.inl h
      | _ => simp [next, DispatchStage.next, Pc.claimed] at h
  | scanningStale => simp [next, recoverRest_claimed] at h
  | iterating pass => simp [next, Pass.begin_claimed] at h
  | skipping pass skip =>
      cases hdone : reply.ok || reply.failed <;> simp [next, hdone, Pc.claimed] at h
  | sleeping => cases hok : reply.ok <;> simp [next, hok, Pc.claimed] at h
  | _ => simp [next, Pc.claimed] at h

/-- How a thread comes to have a claim after its step: it had it before, or
its claim has just succeeded. -/
theorem Pc.claimed_next {pc : Pc} (h : (pc.next pf cfg inp reply).claimed = some c) :
    pc.claimed = some c ∨
      (reply.ok = true ∧ ∃ node, pc.access pf cfg =
        .db (.update (.claimTaskExecution c.task.id c.executionId node c.expectedStatus
          c.expectedNextRunAt))) := by
  cases pc with
  | scheduler pc =>
      rcases SchedulerPc.claimed_next h with hold | ⟨hok, pass, d, rfl, rfl⟩
      · exact Or.inl hold
      · exact Or.inr ⟨hok, cfg.nodeId, rfl⟩
  | handler pc =>
      rcases HandlerPc.claimed_next h with hold | ⟨hok, m, rfl, rfl⟩
      · exact Or.inl hold
      · exact Or.inr ⟨hok, cfg.dispatchNode, rfl⟩
  | execution d stage =>
      left
      cases stage <;> simp only [Pc.next, ExecutionStage.next, ExecutionStage.orUnwind] at h
      all_goals
        repeat' split at h
        all_goals first | exact h | cases h
  | renewer pc => simp [Pc.next, Pc.claimed] at h
  | dead => simp [Pc.next, Pc.claimed] at h

/-- A closure starts with the claim of the thread that enqueues it. -/
theorem Pc.claimed_of_spawned {pc : Pc} {d : Dispatch} (h : pc.spawned inp = some d) :
    pc.claimed = some d.claim := by
  obtain ⟨pass, rfl, -⟩ := Pc.spawned_eq_some h
  rfl

/-! ## The claims of a run -/

/-- The execution id of a transition that is a successful claim of the row. -/
def SystemTransition.claimed? (env : Env) (id : String) (τ : SystemTransition) :
    Option String :=
  match statement? env τ.pre τ.action with
  | some (.claimTaskExecution target e _ _ _) =>
      if target = id ∧ τ.returned env = true then some e else none
  | _ => none

theorem SystemTransition.claimed?_of_affected {id e node : String} {expected : Int}
    {next : Option DateTime}
    (hstmt : statement? env τ.pre τ.action = some (.claimTaskExecution id e node expected next))
    (haffected : Statement.affected τ.pre.stores.now
      (.claimTaskExecution id e node expected next) (τ.pre.stores.tasks.find? id) = true) :
    τ.claimed? env id = some e := by
  simp [claimed?, hstmt, returned, Statement.taskId, haffected]

/-- The execution ids of the successful claims of a row, in order. -/
def claimedIds (env : Env) (id : String) (trace : List SystemTransition) : List String :=
  trace.filterMap (SystemTransition.claimed? env id)

theorem claimedIds_append (env : Env) (id : String) (trace : List SystemTransition)
    (τ : SystemTransition) :
    claimedIds env id (trace ++ [τ]) = claimedIds env id trace ++ (τ.claimed? env id).toList := by
  unfold claimedIds
  rw [List.filterMap_append, List.filterMap_cons, List.filterMap_nil]
  cases τ.claimed? env id <;> rfl

/-- A part of a run with distinct execution ids has distinct execution ids. -/
theorem claimedIds_nodup_initial {id : String} {earlier : List SystemTransition}
    (hinitial : earlier <+: trace) (h : (claimedIds env id trace).Nodup) :
    (claimedIds env id earlier).Nodup :=
  h.sublist (hinitial.sublist.filterMap _)

/-- What a statement of a thread returns. -/
theorem Thread.exec_ok (hth : s.threads tid = some th)
    (haccess : th.access env = .db (.update stmt)) (hok : (th.exec env inp s.stores).2.ok = true) :
    statement? env s (.run tid inp) = some stmt ∧
      stmt.affected s.stores.now (s.stores.tasks.find? stmt.taskId) = true := by
  unfold Thread.exec at hok
  rw [haccess] at hok
  cases hfault : inp.fault with
  | true => simp [Access.exec, hfault] at hok
  | false =>
      refine ⟨?_, by simpa [Access.exec, hfault, DbAccess.exec] using hok⟩
      simp [statement?, hth, haccess, Access.statement?, hfault]

/-- Where the claim of a thread comes from in a step. -/
theorem claimed_step (h : step env s a = some s') (hth : s'.threads tid = some th)
    (hclaimed : th.pc.claimed = some c) :
    (∃ tid₀ th₀, s.threads tid₀ = some th₀ ∧ th₀.pc.claimed = some c) ∨
      ∃ node, statement? env s a = some (.claimTaskExecution c.task.id c.executionId node
          c.expectedStatus c.expectedNextRunAt) ∧
        Statement.affected s.stores.now (.claimTaskExecution c.task.id c.executionId node
          c.expectedStatus c.expectedNextRunAt) (s.stores.tasks.find? c.task.id) = true := by
  -- Only the thread that moves can have made a claim; a closure inherits its parent's.
  cases threadOrigin h hth with
  | kept hbefore hidle => exact Or.inl ⟨tid, th, hbefore, hclaimed⟩
  | moved inp th₀ haction hbefore heq =>
      subst heq
      rcases Pc.claimed_next hclaimed with hold | ⟨hok, node, haccess⟩
      · exact Or.inl ⟨tid, th₀, hbefore, hold⟩
      · right
        rw [haction]
        exact ⟨node, Thread.exec_ok hbefore haccess hok⟩
  | spawned inp parent th₀ d haction hparent hspawn hname hfresh heq =>
      subst heq
      simp only [Pc.claimed, Option.some.injEq] at hclaimed
      subst hclaimed
      exact Or.inl ⟨parent, th₀, hparent, Pc.claimed_of_spawned hspawn⟩
  | killed p th₀ haction hbefore heq =>
      subst heq
      simp [Pc.claimed] at hclaimed
  | booted p scheduler renewer haction hname hfresh heq =>
      rcases heq with rfl | rfl <;> simp [Pc.claimed] at hclaimed
  | called p call inp haction hfresh heq =>
      subst heq
      simp [beginCall_claimed] at hclaimed

/-- The claim of a thread is one of the successful claims of the run. -/
theorem claimed_mem (hrun : Run (step env) s₀ trace s) (hstart : ∀ tid, s₀.threads tid = none) :
    ∀ tid th c, s.threads tid = some th → th.pc.claimed = some c →
      c.executionId ∈ claimedIds env c.task.id trace := by
  apply hrun.history_invariant (P := fun trace s => ∀ tid th c, s.threads tid = some th →
    th.pc.claimed = some c → c.executionId ∈ claimedIds env c.task.id trace)
  · intro tid th c hth
    simp [hstart] at hth
  · intro earlier τ _ _ hstep hpre tid th c hth hclaimed
    rw [claimedIds_append, List.mem_append]
    rcases claimed_step hstep hth hclaimed with ⟨tid₀, th₀, hth₀, hold⟩ | ⟨node, hstmt, hok⟩
    · exact Or.inl (hpre tid₀ th₀ c hth₀ hold)
    · right
      simp [SystemTransition.claimed?_of_affected hstmt hok]

/-! ## The row a claim produced -/

/-- What the row of a claim has kept of it: a start time, and for a claim that
compared the schedule the time it was claimed for, which was due then. -/
def FromClaim (c : Claim) (row : TaskRow) : Prop :=
  ∃ started, row.startedAt = some started ∧
    ∀ v, c.expectedNextRunAt = some v → row.nextRunAt = some v ∧ v ≤ started

/-- A row that is running after a step was running before, unchanged, or has
just been claimed. -/
theorem running_step {id : String} {row : TaskRow} (h : step env s a = some s')
    (hrow : s'.stores.tasks.find? id = some row) (hrunning : row.status = taskRunning) :
    s.stores.tasks.find? id = some row ∨
      ∃ e node expected next r,
        statement? env s a = some (.claimTaskExecution id e node expected next) ∧
        s.stores.tasks.find? id = some r ∧
        Statement.guard s.stores.now (.claimTaskExecution id e node expected next) r = true ∧
        row = Statement.assign s.stores.now (.claimTaskExecution id e node expected next) r := by
  rcases row_of_step (τ := ⟨s, a, s'⟩) h id with hsame | ⟨stmt, hstmt, -, rfl⟩
  · exact Or.inl (hsame.symm.trans hrow)
  · rw [find?_step h, hstmt] at hrow
    simp only [if_true] at hrow
    rcases Statement.running_after (statement_issued hstmt) hrow hrunning with
      hsame | ⟨id', e, node, expected, next, r, rfl, hr, hguard, hassign⟩
    · exact Or.inl hsame
    · exact Or.inr ⟨e, node, expected, next, r, hstmt, hr, hguard, hassign⟩

/-- A claim whose guard accepts the row is a successful claim. -/
theorem claimed?_of_guard {id e node : String} {expected : Int} {next : Option DateTime}
    {r : TaskRow}
    (hstmt : statement? env τ.pre τ.action = some (.claimTaskExecution id e node expected next))
    (hr : τ.pre.stores.tasks.find? id = some r)
    (hguard : Statement.guard τ.pre.stores.now (.claimTaskExecution id e node expected next) r =
      true) : τ.claimed? env id = some e :=
  SystemTransition.claimed?_of_affected hstmt
    ((claim_affected (statement_issued hstmt)).mpr ⟨r, hr, hguard⟩)

/-- With distinct execution ids a successful claim does not use the id of a
thread that has already claimed the row. -/
theorem claimed_fresh {earlier : List SystemTransition} {id e : String}
    (hrun : Run (step env) s₀ earlier τ.pre) (hstart : ∀ tid, s₀.threads tid = none)
    (hdistinct : (claimedIds env id (earlier ++ [τ])).Nodup) (hclaim : τ.claimed? env id = some e)
    (hth : τ.pre.threads tid = some th) (hclaimed : th.pc.claimed = some c) (hid : c.task.id = id) :
    c.executionId ≠ e := by
  intro heq
  have hold := claimed_mem hrun hstart tid th c hth hclaimed
  rw [claimedIds_append, hclaim] at hdistinct
  rw [hid, heq] at hold
  exact (List.nodup_append.mp hdistinct).2.2 _ hold _ (by simp) rfl

/-- With distinct execution ids the row of a thread that has claimed it is the
one its claim produced, while it runs under the thread's id. -/
theorem fromClaim_of_run {id : String} (hrun : Run (step env) s₀ trace s)
    (hstart : ∀ tid, s₀.threads tid = none) (hdistinct : (claimedIds env id trace).Nodup) :
    ∀ tid th c row, s.threads tid = some th → th.pc.claimed = some c → c.task.id = id →
      s.stores.tasks.find? id = some row →
      runningExecution (some row) = some c.executionId → FromClaim c row := by
  apply hrun.history_invariant (P := fun _ s => ∀ tid th c row, s.threads tid = some th →
    th.pc.claimed = some c → c.task.id = id → s.stores.tasks.find? id = some row →
    runningExecution (some row) = some c.executionId → FromClaim c row)
  · intro tid th c row hth
    simp [hstart] at hth
  · intro earlier τ hinitial hearlier hstep hpre tid th c row hth hclaimed hid hrow hrunning
    have hdistinct := claimedIds_nodup_initial hinitial hdistinct
    obtain ⟨_, ⟨⟩, hstatus, hexec⟩ := runningExecution_eq_some.mp hrunning
    rcases claimed_step hstep hth hclaimed with ⟨tid₀, th₀, hth₀, hold⟩ | ⟨node, hstmt, hok⟩
    · rcases running_step hstep hrow hstatus with
        hsame | ⟨e, node, expected, next, r, hstmt, hr, hguard, rfl⟩
      · exact hpre tid₀ th₀ c row hth₀ hold hid hsame hrunning
      · -- A second successful claim with the thread's id.
        simp only [Statement.assign, Option.some.injEq] at hexec
        have hclaim := claimed?_of_guard hstmt hr hguard
        exact absurd hexec.symm
          (claimed_fresh hearlier hstart hdistinct hclaim hth₀ hold hid)
    · have hidle : IdleStatus c.expectedStatus := statement_issued hstmt
      rcases running_step hstep hrow hstatus with
        hsame | ⟨e, node', expected, next, r, hstmt', hr, hguard, hassign⟩
      · -- The claim found an idle row, so the row cannot be unchanged.
        rw [hid, hsame] at hok
        have hnone := (claim_runningExecution hidle hok).1
        rw [hnone] at hrunning
        cases hrunning
      · rw [hstmt, Option.some.injEq] at hstmt'
        injection hstmt' with _ _ _ _ hnext
        refine ⟨τ.pre.stores.now, by rw [hassign]; rfl, ?_⟩
        intro v hv
        rw [hnext] at hv
        have hmatch := (claim_guard.mp hguard).2 v hv
        exact ⟨by rw [hassign]; exact hmatch.1, hmatch.2⟩

end Corpcron
