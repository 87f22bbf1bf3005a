import Corpcron.System.Ownership

/-!
# A due occurrence is consumed once

With misfire policy `once` a dispatch claims a task for the `next_run_at` it
has scanned, and the closure replaces that time when it completes.  For a run
without `RunTaskNow`, `EnableTask`, `UpdateTask` and shutdown the module shows
that after an effective completion no claim for the same time succeeds: the
row is `DISABLED` for good, or its time is later than the one consumed
(`Consumed`).  Rollbacks and recoveries keep a time that is already later, and
a new completion writes one that is later than its own start.

This last step is where the times matter.  The closure computes an instant
after the end of the execution but stores its local time, and where clocks are
set back the stored time need not be later than that of the end
(`SystemTransition.writesLater`).  The run at the end shows what happens then.
-/

namespace Corpcron

open Lib

variable {env : Env} {s s₀ : State} {τ : SystemTransition} {trace : List SystemTransition} {p : Nat}
  {inp : Input} {stmt : Statement}

/-! ## Runs with scans, claims, completions, recoveries and cancels only -/

/-- `CancelTask`. -/
def Request.isCancel : Request → Bool
  | .cancelTask _ _ => true
  | _ => false

/-- The transition is the choice of a next state under shutdown. -/
def SystemTransition.choosesUnderShutdown (τ : SystemTransition) : Bool :=
  match τ.thread? with
  | some ⟨p, .execution _ (.choosing _ _)⟩ => (τ.pre.stores.procs p).shutdown
  | _ => false

/-- The dispatch whose closure calls `completeTaskExecution` in the transition. -/
def SystemTransition.completes? (τ : SystemTransition) : Option Dispatch :=
  match τ.thread? with
  | some ⟨_, .execution d (.completing _ _)⟩ => some d
  | _ => none

theorem SystemTransition.completes?_eq_some {τ : SystemTransition} {d : Dispatch}
    (h : τ.completes? = some d) :
    ∃ p endTime next, τ.thread? = some ⟨p, .execution d (.completing endTime next)⟩ := by
  unfold completes? at h
  split at h
  · rename_i p d' endTime next hthread
    rw [Option.some.injEq] at h
    subst h
    exact ⟨p, endTime, next, hthread⟩
  · simp at h

/-- If the transition is an effective completion by a closure, the end time it
writes is not before the `started_at` of the row. -/
def SystemTransition.endsAfterStart (env : Env) (τ : SystemTransition) : Bool :=
  match τ.thread? with
  | some ⟨_, .execution d (.completing endTime _)⟩ =>
      !τ.returned env ||
        ((τ.pre.stores.tasks.find? d.task.id).bind TaskRow.startedAt).all fun started =>
          endTime.any fun ended => decide (started ≤ ended)
  | _ => true

/-- If the transition is an effective completion of the task by a closure, it
disables the task or writes a local time later than that of its end. -/
def SystemTransition.writesLater (env : Env) (id : String) (τ : SystemTransition) : Bool :=
  match τ.thread? with
  | some ⟨_, .execution d (.completing endTime next)⟩ =>
      d.task.id != id || !τ.returned env || next.status == taskDisabled ||
        next.nextRunAt.all fun later => endTime.all fun ended => decide (ended < later)
  | _ => true

/-- Runs with misfire policy `once`, with no request but `CancelTask`, with no
completion chosen under shutdown and with node clocks at a completion not
behind `NOW()` at the claim. -/
structure OnceRun (env : Env) (trace : List SystemTransition) : Prop where
  policy : ∀ p, (env.node p).misfirePolicy ≠ "skip"
  requests : ∀ τ ∈ trace, τ.action.request?.all Request.isCancel = true
  notShutdown : ∀ τ ∈ trace, τ.choosesUnderShutdown = false
  clocks : ∀ τ ∈ trace, τ.endsAfterStart env = true

theorem OnceRun.initial {env : Env} {earlier trace : List SystemTransition}
    (h : OnceRun env trace) (hinitial : earlier <+: trace) : OnceRun env earlier where
  policy := h.policy
  requests τ hτ := h.requests τ (hinitial.subset hτ)
  notShutdown τ hτ := h.notShutdown τ (hinitial.subset hτ)
  clocks τ hτ := h.clocks τ (hinitial.subset hτ)

/-- A finite run can be checked for these conditions. -/
theorem onceRun_of_all {env : Env} {trace : List SystemTransition}
    (hpolicy : ∀ p, (env.node p).misfirePolicy ≠ "skip")
    (h : trace.all (fun τ => τ.action.request?.all Request.isCancel &&
      !τ.choosesUnderShutdown && τ.endsAfterStart env) = true) : OnceRun env trace := by
  simp only [List.all_eq_true, Bool.and_eq_true, Bool.not_eq_true'] at h
  exact ⟨hpolicy, fun τ hτ => (h τ hτ).1.1, fun τ hτ => (h τ hτ).1.2, fun τ hτ => (h τ hτ).2⟩

/-- The program counters of such a run: no misfire skip and no handler but that of
`CancelTask`. -/
def OncePc : Pc → Prop
  | .scheduler (.skipping _ _) => False
  | .handler (.canceling _ _ _) => True
  | .handler (.recheckingCancel _ _ _) => True
  | .handler (.cancelingRegistered _) => True
  | .handler (.replied _) => True
  | .handler _ => False
  | _ => True

theorem oncePc_recoverRest (rest : List TaskMeta) : OncePc (.scheduler (recoverRest rest)) := by
  cases rest <;> exact trivial

theorem oncePc_begin {pf : Platform} {cfg : NodeConfig} (hpolicy : cfg.misfirePolicy ≠ "skip")
    (inp : Input) (pass : Pass) : OncePc (.scheduler (pass.begin pf cfg inp)) := by
  have hskip : ∀ task, misfireSkip pf cfg task inp.clockMs = none := by
    intro task
    simp [misfireSkip, hpolicy]
  unfold Pass.begin
  split
  · exact trivial
  · simp only [hskip]
    split
    · exact trivial
    · exact trivial
    · split <;> exact trivial

/-- One step of a thread keeps to these program counters. -/
theorem oncePc_next {pf : Platform} {cfg : NodeConfig} {reply : Reply} {pc : Pc}
    (hpolicy : cfg.misfirePolicy ≠ "skip") (h : OncePc pc) : OncePc (pc.next pf cfg inp reply) := by
  cases pc with
  | scheduler pc =>
      cases pc with
      | scanningStale => exact oncePc_recoverRest _
      | recovery rest task stage =>
          cases stage with
          | locking =>
              simp only [Pc.next, SchedulerPc.next]
              split
              · exact trivial
              · exact oncePc_recoverRest rest
          | recovering => exact trivial
          | unlocking => exact oncePc_recoverRest rest
      | iterating pass => exact oncePc_begin hpolicy inp pass
      | skipping pass skip => exact False.elim h
      | dispatching pass d stage =>
          cases stage <;> simp only [Pc.next, SchedulerPc.next, DispatchStage.next] <;>
            (repeat' split) <;> exact trivial
      | sleeping =>
          simp only [Pc.next, SchedulerPc.next]
          split <;> exact trivial
      | _ => exact trivial
  | handler pc =>
      cases pc with
      | canceling taskId text failure =>
          simp only [Pc.next, HandlerPc.next]
          (repeat' split) <;> exact trivial
      | recheckingCancel taskId text failure =>
          simp only [Pc.next, HandlerPc.next]
          split <;> exact trivial
      | cancelingRegistered text => exact trivial
      | replied response => exact trivial
      | _ => exact False.elim h
  | _ => exact trivial

/-- All threads of such a run are at these program counters. -/
theorem oncePc_of_run (hrun : Run (step env) s₀ trace s) (hstart : ∀ tid, s₀.threads tid = none)
    (honce : OnceRun env trace) : ∀ tid th, s.threads tid = some th → OncePc th.pc := by
  apply threads_invariant (P := fun _ pc => OncePc pc) hrun hstart
  · intro p
    exact trivial
  · intro p
    exact ⟨trivial, trivial⟩
  · intro τ hτ p tid call inp haction
    have hcancel := honce.requests τ hτ
    simp only [haction, Action.request?, Option.all_some] at hcancel
    have hbegins := beginCall_begins env.platform (env.node p) inp call
    generalize beginCall env.platform (env.node p) inp call = pc at hbegins
    generalize call.request = request at hbegins hcancel
    cases hbegins with
    | replied request response => exact trivial
    | cancel taskId text => exact trivial
    | _ => simp [Request.isCancel] at hcancel
  · intro p pc inp d _ _
    exact trivial
  · intro τ hτ tid inp th haction hth hpc
    exact oncePc_next (honce.policy th.proc) hpc

/-! ## After the completion -/

/-- The row can no longer be claimed for the time `v`: it is disabled, or its
time is later than `v` and so will be the time written by an execution that is
running. -/
def RowConsumed (v : DateTime) (row : TaskRow) : Prop :=
  row.status = taskDisabled ∨
    ((∀ n, row.nextRunAt = some n → v < n) ∧
      (row.status = taskRunning → ∃ started, row.startedAt = some started ∧ v ≤ started))

/-- The time `v` of a task is consumed. -/
def Consumed (id : String) (v : DateTime) (s : State) : Prop :=
  ∀ row, s.stores.tasks.find? id = some row → RowConsumed v row

theorem RowConsumed.of_running {v : DateTime} {row : TaskRow} (h : RowConsumed v row)
    (hrun : row.status = taskRunning) :
    (∀ n, row.nextRunAt = some n → v < n) ∧
      ∃ started, row.startedAt = some started ∧ v ≤ started := by
  rcases h with hdisabled | ⟨hnext, hstarted⟩
  · rw [hrun] at hdisabled
    exact absurd hdisabled (by decide)
  · exact ⟨hnext, hstarted hrun⟩

/-- A row with an idle status and a later time, or none, is consumed. -/
theorem rowConsumed_of_idle {v : DateTime} {row : TaskRow} (hidle : row.status ≠ taskRunning)
    (hnext : row.status = taskDisabled ∨ ∀ n, row.nextRunAt = some n → v < n) :
    RowConsumed v row := by
  rcases hnext with hdisabled | hlater
  · exact Or.inl hdisabled
  · exact Or.inr ⟨hlater, fun hrun => absurd hrun hidle⟩

/-- The completion of a closure leaves a row consumed if the execution started
at or after `v`. -/
theorem rowConsumed_of_complete {d : Dispatch} {endTime : Option DateTime} {next : NextState}
    {v started : DateTime} {r : TaskRow} (hclock : τ.endsAfterStart env = true)
    (hlater : τ.writesLater env d.task.id = true)
    (hthread : τ.thread? = some ⟨p, .execution d (.completing endTime next)⟩)
    (hreturned : τ.returned env = true) (hrow : τ.pre.stores.tasks.find? d.task.id = some r)
    (hstarted : r.startedAt = some started) (hv : v ≤ started) :
    next.status = taskDisabled ∨ ∀ n, next.nextRunAt = some n → v < n := by
  simp only [SystemTransition.endsAfterStart, hthread, hreturned, Bool.not_true, Bool.false_or,
    hrow, Option.bind_some, hstarted, Option.all_some] at hclock
  simp only [SystemTransition.writesLater, hthread, hreturned, bne_self_eq_false, Bool.not_true,
    Bool.false_or, Bool.or_eq_true, beq_iff_eq] at hlater
  cases endTime with
  | none => simp at hclock
  | some ended =>
      have hnotBefore : started ≤ ended := by simpa using hclock
      refine hlater.imp_right fun hlater n hn => ?_
      rw [hn] at hlater
      have hafter : ended < n := by simpa using hlater
      exact (hv.trans hnotBefore).trans_lt hafter

/-- Such a run inserts and deletes no task. -/
theorem Issues.isUpdate_of_oncePc {cfg : NodeConfig} {pc : Pc} (h : Issues cfg pc stmt)
    (hpc : OncePc pc) : stmt.isUpdate = true := by
  cases h with
  | submit task idle => exact False.elim hpc
  | delete taskId => exact False.elim hpc
  | _ => rfl

/-- A statement of such a run that matches a consumed row leaves it consumed. -/
theorem rowConsumed_assign {cfg : NodeConfig} {pc : Pc} {now v : DateTime} {r : TaskRow}
    (hissues : Issues cfg pc stmt) (hpc : OncePc pc) (hguard : stmt.guard now r = true)
    (hr : RowConsumed v r)
    (hdue : ∀ e node status, stmt = .claimTaskExecution stmt.taskId e node status none → v ≤ now)
    (howned : ∀ c, pc.claimed = some c → c.task.id = stmt.taskId →
      runningExecution (some r) = some c.executionId → FromClaim c r)
    (hcomplete : ∀ d endTime next started, pc = .execution d (.completing endTime next) →
      r.startedAt = some started → v ≤ started →
      next.status = taskDisabled ∨ ∀ n, next.nextRunAt = some n → v < n) :
    RowConsumed v (stmt.assign now r) := by
  cases hissues with
  | recover rest task =>
      have hrunning : r.status = taskRunning := by
        simp only [Statement.guard, Bool.and_eq_true, beq_iff_eq] at hguard
        exact hguard.1
      exact rowConsumed_of_idle IdleStatus.scheduled.ne_running
        (Or.inr (hr.of_running hrunning).1)
  | claim pass d =>
      obtain ⟨hscheduled, hexpected⟩ := claim_guard.mp hguard
      rcases hr with hdisabled | ⟨hnext, -⟩
      · rw [hscheduled] at hdisabled
        exact absurd hdisabled (by decide)
      · -- The time that was expected is later than `v` and has come.
        have hstarts : v ≤ now := by
          cases hn : d.task.nextRunAt with
          | none => exact hdue _ _ _ (by rw [hn]; rfl)
          | some n =>
              obtain ⟨hrow, hcome⟩ := hexpected n hn
              exact (hnext n hrow).le.trans hcome
        exact Or.inr ⟨hnext, fun _ => ⟨now, rfl, hstarts⟩⟩
  | rollBack pass d =>
      obtain ⟨hrunning, hexec⟩ := complete_guard.mp hguard
      -- The rollback restores the time of the row that its own claim found.
      obtain ⟨_, -, hclaim⟩ := howned d.claim rfl rfl
        (runningExecution_eq_some.mpr ⟨r, rfl, hrunning, hexec⟩)
      apply rowConsumed_of_idle IdleStatus.scheduled.ne_running
      right
      intro n hn
      exact (hr.of_running hrunning).1 n (hclaim n hn).1
  | complete d endTime next =>
      obtain ⟨hrunning, -⟩ := complete_guard.mp hguard
      obtain ⟨-, started, hstarted, hv⟩ := hr.of_running hrunning
      exact rowConsumed_of_idle next.idle.ne_running
        (hcomplete d endTime next started rfl hstarted hv)
  | cancel taskId text failure => exact Or.inl rfl
  | _ => exact False.elim hpc

/-- If the transition is an effective claim of the task without an expected time,
it is not made before `v`. -/
def SystemTransition.claimsFrom (env : Env) (id : String) (v : DateTime) (τ : SystemTransition) :
    Bool :=
  match statement? env τ.pre τ.action with
  | some (.claimTaskExecution claimed _ _ _ none) =>
      claimed != id || !τ.returned env || decide (v ≤ τ.pre.stores.now)
  | _ => true

/-- One action keeps a time consumed. -/
theorem consumed_step {id : String} {v : DateTime}
    (hstep : step env τ.pre τ.action = some τ.post)
    (hpcs : ∀ tid th, τ.pre.threads tid = some th → OncePc th.pc)
    (howned : ∀ tid th c row, τ.pre.threads tid = some th → th.pc.claimed = some c →
      c.task.id = id → τ.pre.stores.tasks.find? id = some row →
      runningExecution (some row) = some c.executionId → FromClaim c row)
    (hclock : τ.endsAfterStart env = true) (hlater : τ.writesLater env id = true)
    (hdue : τ.claimsFrom env id v = true) (hconsumed : Consumed id v τ.pre) :
    Consumed id v τ.post := by
  intro row hrow
  rcases row_of_step hstep id with hsame | ⟨stmt, hstmt, hreturned, rfl⟩
  · rw [hsame] at hrow
    exact hconsumed row hrow
  · obtain ⟨tid, inp, ⟨p, pc⟩, haction, hth, -, hissues⟩ := issuer_of_statement hstmt
    have hpc := hpcs tid ⟨p, pc⟩ hth
    obtain ⟨r, hr, hguard, hpost⟩ :=
      SystemTransition.post_of_returned hstep hstmt (hissues.isUpdate_of_oncePc hpc) hreturned
    rw [hpost, Option.some.injEq] at hrow
    subst hrow
    apply rowConsumed_assign hissues hpc hguard (hconsumed r hr)
    · intro e node status heq
      rw [heq] at hstmt
      simpa [SystemTransition.claimsFrom, hstmt, hreturned] using hdue
    · intro c hclaimed hid hexec
      exact howned tid ⟨p, pc⟩ c r hth hclaimed hid hr hexec
    · rintro d endTime next started rfl hstarted hv
      have hthread := SystemTransition.thread?_eq_some.mpr ⟨tid, inp, haction, hth⟩
      cases hissues
      exact rowConsumed_of_complete hclock hlater hthread hreturned hr hstarted hv

/-- The completion of the execution claimed for `v` consumes `v`. -/
theorem consumed_of_completion {before : List SystemTransition} {d : Dispatch}
    {endTime : Option DateTime} {next : NextState} {v : DateTime}
    (hrun : Run (step env) s₀ before τ.pre) (hstep : step env τ.pre τ.action = some τ.post)
    (hstart : ∀ tid, s₀.threads tid = none) (hclock : τ.endsAfterStart env = true)
    (hlater : τ.writesLater env d.task.id = true)
    (hdistinct : (claimedIds env d.task.id before).Nodup)
    (hthread : τ.thread? = some ⟨p, .execution d (.completing endTime next)⟩)
    (hreturned : τ.returned env = true) (hv : d.task.nextRunAt = some v) :
    Consumed d.task.id v τ.post := by
  obtain ⟨tid, inp, haction, hth⟩ := SystemTransition.thread?_eq_some.mp hthread
  obtain ⟨hstmt, -⟩ := τ.statement_of_returned hthread rfl hreturned
  obtain ⟨r, hr, hguard, hpost⟩ := τ.post_of_returned hstep hstmt rfl hreturned
  have hrunning : runningExecution (some r) = some d.claim.executionId :=
    runningExecution_eq_some.mpr ⟨r, rfl, complete_guard.mp hguard⟩
  obtain ⟨started, hstarted, hclaim⟩ :=
    fromClaim_of_run hrun hstart hdistinct tid _ d.claim r hth rfl rfl hr hrunning
  have hnext := rowConsumed_of_complete hclock hlater hthread hreturned hr hstarted
    (hclaim v hv).2
  intro row hrow
  obtain rfl : Statement.assign τ.pre.stores.now _ r = row :=
    Option.some.inj (hpost.symm.trans hrow)
  exact rowConsumed_of_idle next.idle.ne_running hnext

/-- **A due occurrence is consumed once.**  Take a run with misfire policy
`once`, with no request but `CancelTask`, no completion under shutdown and node
clocks not behind `NOW()` at the claim, and in it an effective completion of an
execution claimed for the time `v`.  Let every effective completion of the task
from there on disable it or write a local time later than that of its end, and
let the successful claims of the task carry distinct execution ids.  Then every
later claim for `v` returns false.  (If the task is ever claimed without an
expected time, then not before `v`.) -/
theorem due_occurrence_consumed_once {env : Env} {s₀ s : State}
    {before after : List SystemTransition} {τ : SystemTransition} {d : Dispatch} {v : DateTime}
    (hrun : Run (step env) s₀ (before ++ τ :: after) s)
    (hstart : ∀ tid, s₀.threads tid = none)
    (honce : OnceRun env (before ++ τ :: after))
    (hlater : ∀ x ∈ τ :: after, x.writesLater env d.task.id = true)
    (hdue : ∀ x ∈ after, x.claimsFrom env d.task.id v = true)
    (hdistinct : (claimedIds env d.task.id (before ++ τ :: after)).Nodup)
    (hcompletes : τ.completes? = some d)
    (hreturned : τ.returned env = true) (hv : d.task.nextRunAt = some v) :
    ∀ x ∈ after, ∀ e node status,
      statement? env x.pre x.action =
        some (.claimTaskExecution d.task.id e node status (some v)) →
      x.returned env = false := by
  -- The completion consumes `v`, and every later action keeps it consumed.
  obtain ⟨p, endTime, next, hthread⟩ := SystemTransition.completes?_eq_some hcompletes
  obtain ⟨hbefore, hstep, hafter⟩ := hrun.split
  have hinitial : before <+: before ++ τ :: after := List.prefix_append _ _
  have hconsumed : Consumed d.task.id v τ.post :=
    consumed_of_completion hbefore hstep hstart (honce.clocks τ (by simp)) (hlater τ (by simp))
      (claimedIds_nodup_initial hinitial hdistinct) hthread hreturned hv
  intro x hx e node status hstmt
  have hpre : Consumed d.task.id v x.pre := by
    apply hafter.invariant_pre hx hconsumed
    intro y hy hystep hypre
    have hmem : y ∈ before ++ τ :: after := by simp [hy]
    obtain ⟨earlier, hearlier, hinitial⟩ := hrun.pre_of_mem hmem
    exact consumed_step hystep (oncePc_of_run hearlier hstart (honce.initial hinitial))
      (fromClaim_of_run hearlier hstart (claimedIds_nodup_initial hinitial hdistinct))
      (honce.clocks y hmem) (hlater y (List.mem_cons_of_mem _ hy)) (hdue y hy) hypre
  -- A claim for `v` expects a scheduled row with the time `v`; a consumed row has a later one.
  have hidle : IdleStatus status := statement_issued hstmt
  simp only [SystemTransition.returned, hstmt, Option.any_some, Statement.taskId]
  rw [Bool.eq_false_iff]
  intro hok
  obtain ⟨r, hr, hguard⟩ := (claim_affected hidle).mp hok
  obtain ⟨hstatus, hnext⟩ := claim_guard.mp hguard
  obtain ⟨-, -, th, -, -, -, hissues⟩ := issuer_of_statement hstmt
  rcases hpre r hr with hdisabled | ⟨hlater, -⟩
  · rcases hissues.scheduled_of_claim with hnone | hscheduled
    · cases hnone
    · rw [hstatus, hscheduled] at hdisabled
      exact absurd hdisabled (by decide)
  · exact lt_irrefl v (hlater v (hnext v rfl).1)

/-- A zone whose clocks go from two back to one at second `7200`, and a cron
expression for the thirtieth minute of every hour. -/
def dstPlatform : Platform where
  localtime sec := if sec < 7200 then sec else sec - 3600
  mktime civil := some civil
  cronNext _ nowSec :=
    if nowSec < 1000000000 then some ((nowSec + 1800) / 3600 * 3600 + 1800 : Nat) else none
  cronNext_range := by
    intro expr nowSec nextSec h
    split at h
    · simp only [Option.some.injEq] at h
      omega
    · simp at h

/-- The sample nodes in this zone. -/
def zonedEnv : Env := { sampleEnv with platform := dstPlatform }

/-- Node `b` scans the task; then node `a` claims it, executes it and completes
at second `11`, well before the clocks go back; at last `b` locks the task and
claims it for the time it has scanned. -/
def staleScanRun : List Action :=
  [.boot 1 2 3] ++ runs 2 2 ++ [.boot 0 0 1] ++ runs 0 9 ++
    [.run 0 { fresh := 4 }] ++ executes 4 11000 9 ++ runs 2 6

theorem due_occurrence_consumed_once_staleScan :
    ∃ (before after : List SystemTransition) (τ : SystemTransition) (s : State) (d : Dispatch),
      Run (step zonedEnv) sampleState (before ++ τ :: after) s ∧
      τ.completes? = some d ∧ τ.returned zonedEnv = true ∧ d.task.nextRunAt = some 10 ∧
      ∃ x ∈ after, statement? zonedEnv x.pre x.action =
          some (.claimTaskExecution d.task.id "t:0:0" "b" taskScheduled (some 10)) ∧
        x.returned zonedEnv = false := by
  obtain ⟨s, hrun⟩ := exists_run_of_isSome
    (show (execute (step zonedEnv) sampleState staleScanRun).isSome = true by decide)
  have honce : OnceRun zonedEnv (executeTrace (step zonedEnv) sampleState staleScanRun) :=
    onceRun_of_all (fun p => by simp [zonedEnv, sampleEnv]) (by decide)
  have hdistinct : (claimedIds zonedEnv "t"
      (executeTrace (step zonedEnv) sampleState staleScanRun)).Nodup := by decide
  obtain ⟨τ, hcut, hτ⟩ := exists_cut_of_getElem?
    (l := executeTrace (step zonedEnv) sampleState staleScanRun) 19
    (p := fun τ : SystemTransition => τ.returned zonedEnv && τ.completes?.any fun d =>
      d.task.id == "t" && d.task.nextRunAt == some 10) (by decide)
  have hlater : (executeTrace (step zonedEnv) sampleState staleScanRun).all (fun x =>
      SystemTransition.writesLater zonedEnv "t" x && SystemTransition.claimsFrom zonedEnv "t" 10 x) =
        true := by decide
  have hclaim : ((executeTrace (step zonedEnv) sampleState staleScanRun).drop 20).any (fun x =>
      statement? zonedEnv x.pre x.action ==
        some (.claimTaskExecution "t" "t:0:0" "b" taskScheduled (some 10))) = true := by decide
  simp only [Bool.and_eq_true, Option.any_eq_true, beq_iff_eq] at hτ
  obtain ⟨hreturned, d, hcompletes, hid, hv⟩ := hτ
  simp only [List.any_eq_true, beq_iff_eq] at hclaim
  simp only [List.all_eq_true, Bool.and_eq_true] at hlater
  obtain ⟨x, hx, hstmt⟩ := hclaim
  rw [hcut] at hrun honce hlater hdistinct
  rw [← hid] at hlater hdistinct hstmt
  refine ⟨_, _, τ, s, d, hrun, hcompletes, hreturned, hv, x, hx, hstmt, ?_⟩
  exact due_occurrence_consumed_once hrun (fun _ => rfl) honce
    (fun y hy => (hlater y (List.mem_append_right _ hy)).1)
    (fun y hy => (hlater y (List.mem_append_right _ (List.mem_cons_of_mem _ hy))).2) hdistinct
    hcompletes hreturned hv x hx _ _ _ hstmt

/-! ## Clocks that are set back -/

/-- One node in this zone. -/
def dstEnv : Env where
  platform := dstPlatform
  node _ := { nodeId := "a" }

/-- The task is due at half past one, and it is just after. -/
def dstState : State where
  stores :=
    { now := 5405
      tasks := TaskTable.execute KeyedTable.empty 0
        (.addTask { sampleTask with cronExpr := "0 30 * * * *", nextRunAt := some 5400 }) }
  threads _ := none

/-- The node claims, executes and completes the task, a second after it was
claimed, and then starts its next pass. -/
def dstRun : List Action :=
  [.boot 0 0 1] ++ runs 0 9 ++ [.run 0 { fresh := 2 }] ++ executes 2 5406000 9 ++ runs 0 10

/-- The next occurrence is an hour later but has the same local time, so the
completed execution leaves the task due at the time it was claimed for, and it
is claimed for that time again.  `NOW()` does not go back in this run, and the
execution ids are distinct. -/
theorem due_occurrence_claimed_twice :
    ∃ (env : Env) (s₀ s : State) (before after : List SystemTransition) (τ : SystemTransition)
        (d : Dispatch) (v : DateTime), Run (step env) s₀ (before ++ τ :: after) s ∧
      (∀ tid, s₀.threads tid = none) ∧ OnceRun env (before ++ τ :: after) ∧
      (∀ x ∈ before ++ τ :: after, x.pre.stores.now ≤ x.post.stores.now) ∧
      (claimedIds env d.task.id (before ++ τ :: after)).Nodup ∧
      τ.completes? = some d ∧ τ.returned env = true ∧ d.task.nextRunAt = some v ∧
      ∃ x ∈ after, ∃ e node status, statement? env x.pre x.action =
          some (.claimTaskExecution d.task.id e node status (some v)) ∧
        x.returned env = true := by
  obtain ⟨s, hrun⟩ := exists_run_of_isSome
    (show (execute (step dstEnv) dstState dstRun).isSome = true by decide)
  have honce : OnceRun dstEnv (executeTrace (step dstEnv) dstState dstRun) :=
    onceRun_of_all (fun p => by simp [dstEnv]) (by decide)
  have hnow : ∀ x ∈ executeTrace (step dstEnv) dstState dstRun,
      x.pre.stores.now ≤ x.post.stores.now := by
    simpa using (show (executeTrace (step dstEnv) dstState dstRun).all
      (fun x => decide (x.pre.stores.now ≤ x.post.stores.now)) = true by decide)
  have hdistinct : (claimedIds dstEnv "t" (executeTrace (step dstEnv) dstState dstRun)).Nodup := by
    decide
  obtain ⟨τ, hcut, hτ⟩ := exists_cut_of_getElem?
    (l := executeTrace (step dstEnv) dstState dstRun) 16
    (p := fun τ : SystemTransition => τ.returned dstEnv && τ.completes?.any fun d =>
      d.task.id == "t" && d.task.nextRunAt == some 5400) (by decide)
  have hclaim : ((executeTrace (step dstEnv) dstState dstRun).drop 17).any (fun x =>
      statement? dstEnv x.pre x.action ==
        some (.claimTaskExecution "t" "t:0:1" "a" taskScheduled (some 5400)) &&
      SystemTransition.returned dstEnv x) = true := by decide
  simp only [Bool.and_eq_true, Option.any_eq_true, beq_iff_eq] at hτ
  obtain ⟨hreturned, d, hcompletes, hid, hv⟩ := hτ
  simp only [List.any_eq_true, Bool.and_eq_true, beq_iff_eq] at hclaim
  obtain ⟨x, hx, hstmt, hagain⟩ := hclaim
  rw [hcut] at hrun honce hnow hdistinct
  rw [← hid] at hdistinct hstmt
  exact ⟨dstEnv, dstState, s, _, _, τ, d, 5400, hrun, fun _ => rfl, honce, hnow, hdistinct,
    hcompletes, hreturned, hv, x, hx, _, _, _, hstmt, hagain⟩

end Corpcron
