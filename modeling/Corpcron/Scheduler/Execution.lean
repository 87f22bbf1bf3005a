import Corpcron.MySQL.RowInvariant
import Corpcron.System.Stores

/-!
# The execution closure of `scanAndDispatch`

Once a task is claimed, the scheduler hands a closure to its thread pool.  The
closure calls the worker (`executeTask`), records the outcome in the history,
chooses the state in which the task is left (`nextState`), completes the
execution and finally gives up registry entry, lease and lock.

`ExecutionStage` is the program counter of one such closure.  `access` is the
call a stage makes and `next` where the closure goes with its reply; the local
computations and clock readings between two calls belong to the step of the
earlier one.
-/

namespace Corpcron

/-- Configuration of one node. -/
structure NodeConfig where
  nodeId : String
  /-- `rpc.auth_token`. -/
  authToken : String := ""
  /-- Whether the dispatcher was built with a database client. -/
  hasDb : Bool := true
  /-- `scheduler.misfire_policy`. -/
  misfirePolicy : String := "once"
  /-- `scheduler.misfire_grace_seconds`. -/
  misfireGraceSeconds : Int := 300
  /-- `scheduler.running_stale_timeout_sec`. -/
  runningStaleTimeoutSec : Int := 120
  /-- `scheduler.task_timeout_ms`. -/
  taskTimeoutMs : Int := 5000

/-- `kTaskLockTtlSec`. -/
def taskLockTtlSec : Nat := 60

/-- The local variables of one dispatch: the scanned task, the execution id
drawn for it and its cancellation source. -/
structure Dispatch where
  task : TaskMeta
  executionId : String
  source : Nat

/-- `lock_key` of a task. -/
def lockKey (taskId : String) : String := "task:" ++ taskId

/-- `lock_value` of a dispatch. -/
def Dispatch.lockValue (d : Dispatch) (nodeId : String) : String :=
  nodeId ++ ":" ++ d.executionId

/-- `ExecutionOutcome`, which is also `RpcDispatcher::WorkerResult`. -/
structure ExecutionOutcome where
  success : Bool := false
  result : String := ""
  error : String := ""
  endpoint : String := ""
deriving DecidableEq

/-! ## `executeTask` -/

/-- The timeout in force, and named in the error text. -/
def NodeConfig.effectiveTimeoutMs (cfg : NodeConfig) : Int :=
  if cfg.taskTimeoutMs ≤ 0 then 5000 else cfg.taskTimeoutMs

/-- The first part of `executeTask`, up to the call: `none` when the call is
made. -/
def executeTaskPrecheck (task : TaskMeta) (canceled : Bool) (endpoints : List String) :
    Option ExecutionOutcome :=
  if canceled then
    some { error := "Task execution canceled before RPC dispatch" }
  else if endpoints.isEmpty then
    some { error := "No worker available for handler: " ++ task.handler }
  else
    none

/-- The rest of `executeTask`, from the reply of the pool. -/
def executeTaskReply (cfg : NodeConfig) (canceled : Bool) : WorkerReply → ExecutionOutcome
  | .notSerialized => { error := "Failed to serialize ExecuteTaskRequest" }
  | .failed endpoint poolError =>
      { endpoint := endpoint
        error :=
          if canceled then "Task execution canceled"
          else "RPC call failed or timed out after " ++ toString cfg.effectiveTimeoutMs ++
            " ms: " ++ poolError }
  | .rpcError endpoint (some (code, message)) =>
      { endpoint := endpoint, error := "RPC error " ++ toString code ++ ": " ++ message }
  | .rpcError endpoint none =>
      { endpoint := endpoint, error := "RPC error response parse failed" }
  | .unexpected endpoint serialId =>
      { endpoint := endpoint, error := "Unexpected RPC response serial_id: " ++ toString serialId }
  | .unparsable endpoint =>
      { endpoint := endpoint, error := "Failed to parse ExecuteTaskResponse" }
  | .response endpoint success result error =>
      { endpoint := endpoint, success := success, result := result, error := error }
  -- The closure catches the exception; `outcome` still has its initial value.
  | .exception (some what) => { error := what }
  | .exception none => { error := "Unknown task execution exception" }

/-! ## The state a task is left in -/

/-- The arguments of the final `completeTaskExecution`; the status is never
`RUNNING`. -/
structure NextState where
  status : Int
  nextRunAt : Option DateTime
  retryCount : Int
  idle : IdleStatus status

/-- How the closure chooses `next_status`, `next_run_at` and
`next_retry_count`.  `systemNowMs` is the reading `nextExecution` makes when
the end time is `0`. -/
def nextState (pf : Platform) (task : TaskMeta) (success shutdown : Bool)
    (endMs systemNowMs : Nat) : NextState :=
  -- The flag is looked at before the outcome.
  if shutdown then
    ⟨taskScheduled, task.nextRunAt, task.retryCount, .scheduled⟩
  else if success then
    let nextMs := nextExecution pf task.cronExpr endMs systemNowMs
    if nextMs ≠ 0 then
      ⟨taskScheduled, toDatetimeString pf nextMs, 0, .scheduled⟩
    else
      ⟨taskDisabled, toDatetimeString pf endMs, 0, .disabled⟩
  else
    let retry := task.retryCount + 1
    if retry ≥ task.maxRetries then
      ⟨taskDisabled, toDatetimeString pf endMs, retry, .disabled⟩
    else
      ⟨taskScheduled, toDatetimeString pf (endMs + 1000 * retryDelaySeconds retry), retry,
        .scheduled⟩

/-! ## The closure as a thread -/

/-- Program counter of the closure. -/
inductive ExecutionStage where
  /-- Waiting in the queue of the pool. -/
  | queued
  /-- In `executeTask`, before the first look at the cancellation token. -/
  | checking (startMs : Nat)
  /-- In `executeTask`, waiting for the worker. -/
  | calling (startMs : Nat)
  /-- Before `addHistory`. -/
  | recording (startMs endMs : Nat) (outcome : ExecutionOutcome)
  /-- Before the shutdown flag is read for the choice of the next state. -/
  | choosing (endMs : Nat) (outcome : ExecutionOutcome)
  /-- Before `completeTaskExecution`. -/
  | completing (endTime : Option DateTime) (next : NextState)
  /-- `execution_cleanup`: `unregisterTask`, lease, lock. -/
  | unregistering
  | removingLease
  | unlocking
  | finished

/-- The history row of an execution. -/
def executionHistory (pf : Platform) (cfg : NodeConfig) (d : Dispatch) (startMs endMs : Nat)
    (outcome : ExecutionOutcome) : TaskHistory where
  executionId := d.executionId
  taskId := d.task.id
  execNode := if outcome.endpoint = "" then cfg.nodeId else outcome.endpoint
  success := outcome.success
  result := outcome.result
  error := outcome.error
  startTime := toDatetimeString pf startMs
  endTime := toDatetimeString pf endMs

namespace ExecutionStage

/-- The call a stage makes. -/
def access (pf : Platform) (cfg : NodeConfig) (d : Dispatch) : ExecutionStage → Access
  | .queued => .idle
  | .checking _ => .process (.executionCanceled d.source)
  | .calling _ => .process (.executionCanceled d.source)
  | .recording startMs endMs outcome =>
      .db (.addHistory (executionHistory pf cfg d startMs endMs outcome))
  | .choosing _ _ => .process .shutdownRequested
  | .completing endTime next =>
      .db (.update (.completeTaskExecution d.task.id d.executionId next.status next.nextRunAt
        endTime next.retryCount))
  | .unregistering => .process (.unregisterTask d.task.id d.executionId)
  | .removingLease => .process (.removeLease (lockKey d.task.id) (d.lockValue cfg.nodeId))
  | .unlocking => .redis (.unlock (lockKey d.task.id) (d.lockValue cfg.nodeId))
  | .finished => .idle

/-- An exception leaves the closure: the pool catches it, and only
`execution_cleanup` is run. -/
def orUnwind (inp : Input) (stage : ExecutionStage) : ExecutionStage :=
  if inp.throws then .unregistering else stage

/-- Where the closure goes with the reply of its call.  Exceptions of
`executeTask` are caught and become its outcome; those of the code around it
are not. -/
def next (pf : Platform) (cfg : NodeConfig) (d : Dispatch) (inp : Input) (reply : Reply) :
    ExecutionStage → ExecutionStage
  | .queued => orUnwind inp (.checking inp.clockMs)
  | .checking startMs =>
      match executeTaskPrecheck d.task reply.ok inp.endpoints with
      | some outcome => orUnwind inp (.recording startMs inp.clockMs outcome)
      | none => .calling startMs
  | .calling startMs =>
      orUnwind inp (.recording startMs inp.clockMs (executeTaskReply cfg reply.ok inp.reply))
  | .recording _ endMs outcome => orUnwind inp (.choosing endMs outcome)
  | .choosing endMs outcome =>
      orUnwind inp (.completing (toDatetimeString pf endMs)
        (nextState pf d.task outcome.success reply.ok endMs inp.clockMs))
  | .completing _ _ => .unregistering
  | .unregistering => .removingLease
  | .removingLease => .unlocking
  | .unlocking => .finished
  | .finished => .finished

end ExecutionStage

end Corpcron
