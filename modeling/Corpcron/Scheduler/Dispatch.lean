import Corpcron.Scheduler.Execution

/-!
# The scheduler loop and the lock renewer

`SchedulerPc` is the program counter of the thread that runs `schedulerLoop`:
one pass recovers stale executions, scans the due tasks and then goes through
the scanned list.  The list is read once per pass, so the entries a pass works
on may be arbitrarily old; `Pass` carries what is left of it together with the
`available_handlers` memo.

Between a successful `lock` and the corresponding `unlock` the thread is in a
`DispatchStage`.  The stages after `claiming` follow the two ways out of the
block: the closure is enqueued and takes over the lock, or `enqueue_cleanup`
runs.  `RenewerPc` is the program counter of `LockRenewer::loop`.
-/

namespace Corpcron

/-! ## Stale executions -/

/-- `kStaleRecoveryBatchSize`. -/
def staleRecoveryBatchSize : Nat := 50

/-- `stale_after_sec`. -/
def NodeConfig.staleAfterSec (cfg : NodeConfig) : Int :=
  max cfg.runningStaleTimeoutSec (taskLockTtlSec * 2 : Nat)

/-- `lock_value` of a recovery. -/
def recoveryLockValue (nodeId : String) (task : TaskMeta) : String :=
  "recovery:" ++ nodeId ++ ":" ++ task.currentExecutionId

/-- Progress of one iteration of `recoverStaleExecutions`. -/
inductive RecoveryStage where
  | locking
  | recovering
  | unlocking

/-! ## Due tasks -/

/-- What is left of a scan. -/
structure Pass where
  rest : List TaskMeta
  /-- `available_handlers`. -/
  available : List (String × Bool) := []

/-- The arguments of the `updateTaskRuntime` of a misfire skip. -/
structure MisfireSkip where
  task : TaskMeta
  status : Int
  nextRunAt : Option DateTime
  idle : IdleStatus status

/-- The statement of a misfire skip: everything but status and time is written
back as it was scanned. -/
def MisfireSkip.statement (skip : MisfireSkip) : Statement :=
  .updateTaskRuntime skip.task.id skip.status skip.nextRunAt skip.task.lastRunAt
    skip.task.retryCount

/-- The misfire policy `skip`: `none` when the task is to be dispatched. -/
def misfireSkip (pf : Platform) (cfg : NodeConfig) (task : TaskMeta) (nowMs : Nat) :
    Option MisfireSkip :=
  if cfg.misfirePolicy = "skip" then
    (parseDatetime pf task.nextRunAt).bind fun dueSec =>
      -- `duration_cast` to seconds truncates towards zero.
      let overdue := ((nowMs : Int) - dueSec * 1000).tdiv 1000
      if overdue > max 0 cfg.misfireGraceSeconds then
        let nextMs := nextExecution pf task.cronExpr nowMs nowMs
        if nextMs ≠ 0 then
          some ⟨task, taskScheduled, toDatetimeString pf nextMs, .scheduled⟩
        else
          some ⟨task, taskDisabled, task.nextRunAt, .disabled⟩
      else none
  else none

/-- `next_execution_id`. -/
def nextExecutionId (taskId : String) (nowMs sequence : Nat) : String :=
  taskId ++ ":" ++ toString nowMs ++ ":" ++ toString sequence

/-- Progress of one dispatch, from the first attempt to lock the task. -/
inductive DispatchStage where
  | locking
  | addingLease
  | registering
  | claiming
  | checking
  | enqueueing
  /-- `enqueue_cleanup`; the flag is `execution_claimed`. -/
  | unregistering (claimed : Bool)
  | removingLease (claimed : Bool)
  | rollingBack
  | unlocking
deriving DecidableEq

/-! ## The scheduler thread -/

/-- Program counter of `schedulerLoop`. -/
inductive SchedulerPc where
  /-- Before `getStaleRunningTasks`. -/
  | scanningStale
  | recovery (rest : List TaskMeta) (task : TaskMeta) (stage : RecoveryStage)
  /-- Before `getDueTasks`. -/
  | scanningDue
  /-- At the head of the loop over the scanned tasks. -/
  | iterating (pass : Pass)
  /-- In `updateTaskRuntime`, before the `UPDATE`. -/
  | skipping (pass : Pass) (skip : MisfireSkip)
  /-- In `updateTaskRuntime`, after an `UPDATE` that changed nothing. -/
  | recheckingSkip (pass : Pass) (skip : MisfireSkip)
  /-- Before `next_execution_id`. -/
  | numbering (pass : Pass) (task : TaskMeta)
  | dispatching (pass : Pass) (d : Dispatch) (stage : DispatchStage)
  /-- Between two passes. -/
  | sleeping
  | exited

/-- Continue with the next stale task, or with the due tasks. -/
def recoverRest : List TaskMeta → SchedulerPc
  | [] => .scanningDue
  | task :: rest => .recovery rest task .locking

/-- One iteration of the loop up to the first call that concerns the task. -/
def Pass.begin (pf : Platform) (cfg : NodeConfig) (inp : Input) (pass : Pass) : SchedulerPc :=
  match pass.rest with
  | [] => .sleeping
  | task :: rest =>
      match misfireSkip pf cfg task inp.clockMs with
      | some skip => .skipping { pass with rest := rest } skip
      | none =>
          match pass.available.lookup task.handler with
          | some true => .numbering { pass with rest := rest } task
          | some false => .iterating { pass with rest := rest }
          | none =>
              -- Discovery is asked once for each handler of a pass.
              let found := !inp.endpoints.isEmpty
              let pass' : Pass := ⟨rest, (task.handler, found) :: pass.available⟩
              if found then .numbering pass' task else .iterating pass'

/-- The call a dispatch makes. -/
def DispatchStage.access (cfg : NodeConfig) (d : Dispatch) : DispatchStage → Access
  | .locking =>
      .redis (.lock (lockKey d.task.id) (d.lockValue cfg.nodeId) taskLockTtlSec)
  | .addingLease =>
      .process (.addLease (lockKey d.task.id) (d.lockValue cfg.nodeId) taskLockTtlSec d.source)
  | .registering => .process (.registerTask d.task.id d.executionId d.source)
  | .claiming =>
      .db (.update (.claimTaskExecution d.task.id d.executionId cfg.nodeId taskScheduled
        d.task.nextRunAt))
  | .checking => .process (.cancellationRequested d.source)
  | .enqueueing => .idle
  | .unregistering _ => .process (.unregisterTask d.task.id d.executionId)
  | .removingLease _ => .process (.removeLease (lockKey d.task.id) (d.lockValue cfg.nodeId))
  | .rollingBack =>
      .db (.update (.completeTaskExecution d.task.id d.executionId taskScheduled
        d.task.nextRunAt d.task.lastRunAt d.task.retryCount))
  | .unlocking => .redis (.unlock (lockKey d.task.id) (d.lockValue cfg.nodeId))

/-- Where a dispatch goes with the reply of its call. -/
def DispatchStage.next (pass : Pass) (d : Dispatch) (inp : Input) (reply : Reply) :
    DispatchStage → SchedulerPc
  | .locking =>
      -- `lock` polls until its timeout of 100 ms.
      if reply.ok then .dispatching pass d .addingLease
      else if inp.timedOut then .iterating pass
      else .dispatching pass d .locking
  | .addingLease => .dispatching pass d .registering
  | .registering => .dispatching pass d .claiming
  | .claiming =>
      if reply.ok then .dispatching pass d .checking
      else .dispatching pass d (.unregistering false)
  | .checking =>
      -- A cancellation that came in by now rolls the claim back.
      if reply.ok then .dispatching pass d (.unregistering true)
      else .dispatching pass d .enqueueing
  | .enqueueing =>
      if inp.enqueued then .iterating pass
      else .dispatching pass d (.unregistering true)
  | .unregistering claimed => .dispatching pass d (.removingLease claimed)
  | .removingLease true => .dispatching pass d .rollingBack
  | .removingLease false => .dispatching pass d .unlocking
  | .rollingBack => .dispatching pass d .unlocking
  | .unlocking => .iterating pass

namespace SchedulerPc

/-- The call the scheduler thread makes. -/
def access (cfg : NodeConfig) : SchedulerPc → Access
  | .scanningStale => .db (.getStaleRunningTasks cfg.staleAfterSec staleRecoveryBatchSize)
  | .recovery _ task .locking =>
      .redis (.lock (lockKey task.id) (recoveryLockValue cfg.nodeId task) taskLockTtlSec)
  | .recovery _ task .recovering =>
      .db (.update (.recoverTaskExecution task.id task.currentExecutionId))
  | .recovery _ task .unlocking =>
      .redis (.unlock (lockKey task.id) (recoveryLockValue cfg.nodeId task))
  | .scanningDue => .db (.getDueTasks 100)
  | .iterating _ => .idle
  | .skipping _ skip => .db (.update skip.statement)
  | .recheckingSkip _ skip => .db (.taskExistsAndIsNotRunning skip.task.id)
  | .numbering _ _ => .process .nextSequence
  | .dispatching _ d stage => stage.access cfg d
  | .sleeping => .process .running
  | .exited => .idle

/-- Where the scheduler thread goes with the reply of its call. -/
def next (pf : Platform) (cfg : NodeConfig) (inp : Input) (reply : Reply) :
    SchedulerPc → SchedulerPc
  | .scanningStale => recoverRest reply.tasks
  | .recovery rest task .locking =>
      -- The timeout is 0, so there is one attempt only.
      if reply.ok then .recovery rest task .recovering else recoverRest rest
  -- Whether the recovery took effect is only logged.
  | .recovery rest task .recovering => .recovery rest task .unlocking
  | .recovery rest _ .unlocking => recoverRest rest
  | .scanningDue => .iterating { rest := reply.tasks }
  | .iterating pass => pass.begin pf cfg inp
  | .skipping pass skip =>
      if reply.ok || reply.failed then .iterating pass else .recheckingSkip pass skip
  | .recheckingSkip pass _ => .iterating pass
  | .numbering pass task =>
      .dispatching pass ⟨task, nextExecutionId task.id inp.clockMs reply.number, reply.number⟩
        .locking
  | .dispatching pass d stage => stage.next pass d inp reply
  | .sleeping => if reply.ok then .scanningStale else .exited
  | .exited => .exited

/-- The closure handed to the thread pool in this step. -/
def spawned (inp : Input) : SchedulerPc → Option Dispatch
  | .dispatching _ d .enqueueing => if inp.enqueued then some d else none
  | _ => none

end SchedulerPc

/-! ## The lock renewer -/

/-- Program counter of `LockRenewer::loop`. -/
inductive RenewerPc where
  /-- Waiting for the next renewal time. -/
  | waiting
  /-- Renewing the snapshot `due`: `lease` is next, then `todo`. -/
  | renewing (due : List Lease) (lease : Lease) (todo lost : List Lease)
  /-- About to re-check the snapshot under the mutex. -/
  | judging (due lost : List Lease)

/-- Continue with the next lease of the snapshot. -/
def renewRest (due lost : List Lease) : List Lease → RenewerPc
  | [] => .judging due lost
  | lease :: todo => .renewing due lease todo lost

namespace RenewerPc

/-- The call the renewer makes. -/
def access : RenewerPc → Access
  | .waiting => .process .dueLeases
  | .renewing _ lease _ _ => .redis (.renewLock lease.key lease.value lease.ttlSec)
  | .judging due lost => .process (.judgeLeases due lost)

/-- Where the renewer goes with the reply of its call. -/
def next (reply : Reply) : RenewerPc → RenewerPc
  | .waiting => renewRest reply.leases [] reply.leases
  | .renewing due lease todo lost =>
      renewRest due (if reply.ok then lost else lost ++ [lease]) todo
  | .judging _ _ => .waiting

end RenewerPc

end Corpcron
