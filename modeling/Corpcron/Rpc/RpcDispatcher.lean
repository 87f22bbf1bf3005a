import Corpcron.Lib.Program
import Corpcron.Rpc.Messages

/-!
# `RpcDispatcher`

A dispatched request is a `Program`: the operations are everything the
dispatcher reaches outside its own memory, the replies are whatever these give
back.  Parsing, authorisation and the checks on a request are not operations;
that a request gets no further can be read off its program.

The handlers begin alike: they parse the payload and compare the token
(`withRequest`).  `HealthCheck` does not look at the token.  `StreamMetrics` has
a path of its own in `dispatchStreamWithContext`, past the interceptors.
-/

namespace Corpcron

open Lib

/-! ## Operations -/

/-- `TaskExecutionContext`. -/
structure TaskExecutionContext where
  taskId : String := ""
  executionId : String := ""
  deadlineUnixMs : Nat := 0

/-- How a call of a registered handler ends: with a result, with a
`std::exception` of the given `what()`, or with something else. -/
abbrev HandlerEnd := Except (Option String) String

/-- `TaskQuery`. -/
structure TaskQuery where
  statusFilter : Int
  keyword : String
  limit : Nat
  offset : Nat

/-- `HistoryQuery`. -/
structure HistoryQuery where
  taskId : String
  successFilter : Int
  keyword : String
  limit : Nat
  offset : Nat

/-- `TaskPage` and `HistoryPage`. -/
structure Page (α : Type) where
  items : List α
  total : Nat

/-- What `Metrics` is told. -/
inductive MetricsEvent where
  | rpcRequest
  | rpcSuccess
  | rpcError
  | taskSuccess
  | taskFailure
  | taskDuration (ms : Nat)

/-- The operations of a dispatcher. -/
inductive DispatchOp where
  /-- One statement of `MySQLClient` on the tables of tasks and history. -/
  | db (call : DbAccess)
  | listTasks (query : TaskQuery)
  | listHistory (query : HistoryQuery)
  /-- `RedisClient::discoverServices`. -/
  | discoverServices (serviceName : String)
  /-- `TaskCancellationRegistry::cancel`. -/
  | cancelRegistered (taskId : String)
  /-- `HandlerRegistry::hasHandler`. -/
  | hasHandler (handler : String)
  /-- `HandlerRegistry::execute`. -/
  | execute (handler : String) (context : TaskExecutionContext) (params : String)
  /-- `RpcClientPool::call` with an `ExecuteTaskRequest`. -/
  | callWorker (endpoints : List String) (request : Rpc.ExecuteTaskRequest)
  /-- `Metrics::snapshot`. -/
  | snapshot
  | count (event : MetricsEvent)
  /-- `system_clock::now()`, in milliseconds. -/
  | clock
  /-- `steady_clock::now()`, in milliseconds. -/
  | steadyClock
  /-- `generate_uuid`. -/
  | uuid

/-- The replies. -/
abbrev DispatchOp.Reply : DispatchOp → Type
  | .db _ => Corpcron.Reply
  | .listTasks _ => Page TaskMeta
  | .listHistory _ => Page TaskHistory
  | .discoverServices _ => List String
  | .cancelRegistered _ => Bool
  | .hasHandler _ => Bool
  | .execute _ _ _ => HandlerEnd
  | .callWorker _ _ => WorkerReply
  | .snapshot => MetricsSnapshot
  | .count _ => Unit
  | .clock => Nat
  | .steadyClock => Nat
  | .uuid => String

/-- Programs of a dispatcher. -/
abbrev Dispatching (α : Type) := Program DispatchOp.Reply α

/-- An exception leaves the function; `none` for something that is not a
`std::exception`. -/
abbrev Thrown (α : Type) := Except (Option String) α

namespace Dispatching

@[simp] def db (call : DbAccess) : Dispatching Corpcron.Reply := Program.perform (DispatchOp.db call)

@[simp] def listTasks (query : TaskQuery) : Dispatching (Page TaskMeta) :=
  Program.perform (DispatchOp.listTasks query)

@[simp] def listHistory (query : HistoryQuery) : Dispatching (Page TaskHistory) :=
  Program.perform (DispatchOp.listHistory query)

@[simp] def discoverServices (serviceName : String) : Dispatching (List String) :=
  Program.perform (DispatchOp.discoverServices serviceName)

@[simp] def cancelRegistered (taskId : String) : Dispatching Bool :=
  Program.perform (DispatchOp.cancelRegistered taskId)

@[simp] def hasHandler (handler : String) : Dispatching Bool :=
  Program.perform (DispatchOp.hasHandler handler)

@[simp] def execute (handler : String) (context : TaskExecutionContext) (params : String) :
    Dispatching HandlerEnd :=
  Program.perform (DispatchOp.execute handler context params)

@[simp] def callWorker (endpoints : List String) (request : Rpc.ExecuteTaskRequest) :
    Dispatching WorkerReply :=
  Program.perform (DispatchOp.callWorker endpoints request)

@[simp] def snapshot : Dispatching MetricsSnapshot := Program.perform DispatchOp.snapshot

@[simp] def count (event : MetricsEvent) : Dispatching Unit := Program.perform (DispatchOp.count event)

@[simp] def clock : Dispatching Nat := Program.perform DispatchOp.clock

@[simp] def steadyClock : Dispatching Nat := Program.perform DispatchOp.steadyClock

@[simp] def uuid : Dispatching String := Program.perform DispatchOp.uuid

/-- `updateTaskDefinition` and `updateTaskRuntime`: an `UPDATE` that changed
nothing is followed by a second query. -/
def updateIdle (stmt : Statement) : Dispatching Bool := do
  let reply ← db (.update stmt)
  if reply.ok then return true
  if reply.failed then return false
  return (← db (.taskExistsAndIsNotRunning stmt.taskId)).ok

/-- `MySQLClient::cancelTask`. -/
def cancelTask (taskId : String) : Dispatching Bool := do
  let reply ← db (.update (.cancelTask taskId))
  if reply.ok then return true
  if reply.failed then return false
  return (← db (.taskExists taskId)).ok

end Dispatching

open Dispatching

/-! ## The dispatcher -/

/-- `RpcNodeRole`. -/
inductive RpcNodeRole where
  | combined
  | controlPlane
  | worker
deriving DecidableEq

/-- The three classes of `rpc_interceptor.cpp`. -/
inductive RpcInterceptor where
  | logging
  | metrics
  | exception

/-- `RpcDispatcher`: token, node id and database client are those of the node. -/
structure RpcDispatcher where
  cfg : NodeConfig
  role : RpcNodeRole := .combined
  serviceName : String := "rpc"
  workerServiceName : String := "worker"
  workerTimeoutMs : Nat := 5000
  /-- Whether there are a Redis client and, with it, a worker pool. -/
  hasRedis : Bool := true
  interceptors : List RpcInterceptor := [.logging, .metrics, .exception]

namespace RpcDispatcher

/-- The loop of `authorized` over two tokens of one length. -/
def difference : List UInt8 → List UInt8 → UInt8
  | a :: as, b :: bs => (a ^^^ b) ||| difference as bs
  | _, _ => 0

/-- `authorized`. -/
def authorized (d : RpcDispatcher) (requestToken : String) : Bool :=
  let token := stringBytes d.cfg.authToken
  let request := stringBytes requestToken
  if token.isEmpty then true
  else if token.length != request.length then false
  else difference token request == 0

/-- `methodAllowed`. -/
def methodAllowed (d : RpcDispatcher) (serialId : UInt32) : Bool :=
  match d.role with
  | .combined => true
  | .controlPlane => serialId != Method.executeTask.requestSerialId
  | .worker =>
      [Method.echo, .executeTask, .getMetrics, .healthCheck, .streamMetrics].any
        fun m => m.requestSerialId == serialId

/-- `handlerAvailable`. -/
def handlerAvailable (d : RpcDispatcher) (handler : String) : Dispatching Bool := do
  if handler = "" then return false
  if d.role ≠ .controlPlane then
    if ← hasHandler handler then return true
  if d.hasRedis = false then hasHandler handler
  else
    let endpoints ← discoverServices (d.workerServiceName ++ ":" ++ handler)
    return !endpoints.isEmpty

/-- `invokeWorker` when the handler is not called in the process itself. -/
def reachWorker (d : RpcDispatcher) (taskId executionId handler params : String) :
    Dispatching Invocation := do
  if d.hasRedis = false then return .noDiscovery
  let endpoints ← discoverServices (d.workerServiceName ++ ":" ++ handler)
  if endpoints.isEmpty then return .noWorker
  let nowMs ← clock
  let reply ← callWorker endpoints
    { taskId, executionId, handler, params, authToken := d.cfg.authToken
      deadlineUnixMs := nowMs + d.workerTimeoutMs }
  return .remote reply

/-- `invokeWorker` up to the point where the outcome is made of what came
back. -/
def reachHandler (d : RpcDispatcher) (taskId executionId handler params : String) :
    Dispatching Invocation := do
  if d.role = .combined then
    if ← hasHandler handler then
      let nowMs ← clock
      let ended ← execute handler
        { taskId, executionId, deadlineUnixMs := nowMs + d.workerTimeoutMs } params
      return .inProcess ended
    else d.reachWorker taskId executionId handler params
  else d.reachWorker taskId executionId handler params

/-- `invokeWorker`. -/
def invokeWorker (d : RpcDispatcher) (taskId executionId handler params : String) :
    Dispatching (Thrown ExecutionOutcome) := do
  let invocation ← d.reachHandler taskId executionId handler params
  return Corpcron.invokeWorker d.cfg handler invocation

/-! ## Handlers -/

/-- The beginning all handlers but one share. -/
def withRequest {α : Type} (d : RpcDispatcher) (codec : Codec) (m : Method) (payload : List UInt8)
    (refuse : RpcResponse → α) (body : m.Request → Dispatching α) : Dispatching α :=
  match codec.parse m payload with
  | none => return refuse (.error .badRequest ("Parse " ++ m.name ++ "Request failed"))
  | some req =>
      if d.authorized (m.authToken req) = false then
        return refuse (.error .unauthorized "Invalid auth token")
      else body req

variable (pf : Platform) (d : RpcDispatcher) (codec : Codec)

/-- `handleEcho`. -/
def handleEcho (payload : List UInt8) : Dispatching RpcResponse :=
  d.withRequest codec .echo payload id fun (req : Rpc.EchoRequest) =>
    return codec.makeResponse (.echo ("Echo: " ++ req.message))

/-- `handleSubmitTask` after the token has been compared. -/
def submitTask (req : Rpc.SubmitTaskRequest) : Dispatching Response := do
  let id ← uuid
  if req.cronExpr = "" ∨ req.handler = "" then
    return .error .badRequest "Cron and handler are required"
  if (← d.handlerAvailable req.handler) = false then
    return .error .handlerNotFound ("Handler not found: " ++ req.handler)
  let nowMs ← clock
  let nextRunMs := nextExecution pf req.cronExpr nowMs nowMs
  if nextRunMs = 0 then return .submitted false "" "Invalid cron expression"
  if d.cfg.hasDb = false then return .error .dbError "DB client is not available"
  let reply ← db (.update (.addTask
    { id := id, cronExpr := req.cronExpr, params := req.params, handler := req.handler
      status := taskScheduled, nextRunAt := toDatetimeString pf nextRunMs }))
  if reply.ok = false then return .error .dbError "DB insert failed"
  return .submitted true id ""

/-- `handleSubmitTask`. -/
def handleSubmitTask (payload : List UInt8) : Dispatching RpcResponse :=
  d.withRequest codec .submitTask payload id fun req => do
    return codec.taskResponse .submitTask (← submitTask pf d req)

/-- The answer of `ExecuteTask` to the way the handler has ended: `error` is
empty unless an exception was caught, and `success` is that it is empty. -/
def executeTaskMessage (ended : HandlerEnd) : ResponseMessage :=
  let error := match ended with
    | .ok _ => ""
    | .error (some what) => what
    | .error none => "Unknown handler exception"
  let result := match ended with
    | .ok result => result
    | .error _ => "Exception: " ++ error
  .executeTask (error == "") result error

/-- `handleExecuteTask`. -/
def handleExecuteTask (payload : List UInt8) : Dispatching RpcResponse :=
  d.withRequest codec .executeTask payload id fun (req : Rpc.ExecuteTaskRequest) => do
    if req.handler = "" then return .error .badRequest "Handler is required"
    if (← hasHandler req.handler) = false then
      return .error .handlerNotFound ("Handler not found: " ++ req.handler)
    let nowMs ← clock
    if req.deadlineUnixMs > 0 ∧ nowMs ≥ req.deadlineUnixMs then
      return .error .deadlineExceeded "Task deadline exceeded before execution"
    let ended ← execute req.handler
      ⟨req.taskId, req.executionId, req.deadlineUnixMs⟩ req.params
    return codec.makeResponse (executeTaskMessage ended)

/-- The statements of a cancel, with the error text if it fails. -/
def cancel (taskId failure : String) : Dispatching Response := do
  if ← Dispatching.cancelTask taskId then
    let _ ← cancelRegistered taskId
    return .status true ""
  return .status false failure

/-- The checks that `CancelTask`, `EnableTask`, `DeleteTask` and `RunTaskNow`
make before they go to the database. -/
def withTaskId {α : Type} (taskId : String) (refuse : Response → α) (body : Dispatching α) :
    Dispatching α :=
  if taskId = "" then return refuse (.error .badRequest "Task id is required")
  else if d.cfg.hasDb = false then return refuse (.error .dbError "DB client is not available")
  else body

/-- `handleCancelTask`. -/
def handleCancelTask (payload : List UInt8) : Dispatching RpcResponse :=
  d.withRequest codec .cancelTask payload id fun (req : Rpc.TaskIdRequest) => do
    return codec.taskResponse .cancelTask
      (← d.withTaskId req.taskId id (cancel req.taskId "Task not found"))

/-- `limit` and `offset` of a page. -/
def pageLimit (limit : Int) : Nat := min (if limit > 0 then limit.toNat else 100) 500

def pageOffset (offset : Int) : Nat := offset.toNat

/-- `handleListTasks`. -/
def handleListTasks (payload : List UInt8) : Dispatching RpcResponse :=
  d.withRequest codec .listTasks payload id fun (req : Rpc.ListTasksRequest) => do
    if d.cfg.hasDb = false then return .error .dbError "DB client is not available"
    let statusFilter :=
      if req.hasStatusFilter then req.statusFilter
      else if req.enabledOnly then taskScheduled else -1
    let page ← listTasks
      ⟨statusFilter, req.keyword, pageLimit req.limit, pageOffset req.offset⟩
    return codec.makeResponse
      (.listTasks page.items page.total (pageOffset req.offset) (pageLimit req.limit))

/-- `handleListHistory`. -/
def handleListHistory (payload : List UInt8) : Dispatching RpcResponse :=
  d.withRequest codec .listHistory payload id fun (req : Rpc.ListHistoryRequest) => do
    if d.cfg.hasDb = false then return .error .dbError "DB client is not available"
    let successFilter := if req.hasSuccessFilter then req.successFilter else -1
    let page ← listHistory
      ⟨req.taskId, successFilter, req.keyword, pageLimit req.limit, pageOffset req.offset⟩
    return codec.makeResponse
      (.listHistory page.items page.total (pageOffset req.offset) (pageLimit req.limit))

/-- `handleListServices`. -/
def handleListServices (payload : List UInt8) : Dispatching RpcResponse :=
  d.withRequest codec .listServices payload id fun (req : Rpc.ListServicesRequest) => do
    if d.hasRedis = false then return .error .internalError "Redis client is not available"
    let serviceName := if req.serviceName = "" then "rpc" else req.serviceName
    let endpoints ← discoverServices serviceName
    return codec.makeResponse (.listServices endpoints)

/-- `handleUpdateTask` after the token has been compared; the database is
checked before the id. -/
def updateTask (req : Rpc.UpdateTaskRequest) : Dispatching Response := do
  if d.cfg.hasDb = false then return .error .dbError "DB client is not available"
  match req.task with
  | none => return .error .badRequest "Task id is required"
  | some info =>
      if info.id = "" then return .error .badRequest "Task id is required"
      match (← db (.getTask info.id)).task with
      | none => return .status false "Task not found"
      | some existing =>
          if existing.status = taskRunning then
            return .status false "Running task cannot be edited; cancel it first"
          if info.cronExpr = "" ∨ info.handler = "" then
            return .error .badRequest "Cron and handler are required"
          if info.status ≠ taskDisabled ∧ info.status ≠ taskScheduled then
            return .error .badRequest "Task status must be disabled or scheduled"
          if (← d.handlerAvailable info.handler) = false then
            return .error .handlerNotFound ("Handler not found: " ++ info.handler)
          if info.status = taskScheduled then
            let nowMs ← clock
            let nextMs := nextExecution pf info.cronExpr nowMs nowMs
            if nextMs = 0 then return .status false "Invalid cron expression"
            let updated ← updateIdle (.updateTaskDefinition
              (updatedTask info existing (toDatetimeString pf nextMs)))
            return .status updated (if updated then "" else "DB update failed")
          else
            let updated ← updateIdle (.updateTaskDefinition
              (updatedTask info existing existing.nextRunAt))
            return .status updated (if updated then "" else "DB update failed")

/-- `handleUpdateTask`. -/
def handleUpdateTask (payload : List UInt8) : Dispatching RpcResponse :=
  d.withRequest codec .updateTask payload id fun req => do
    return codec.taskResponse .updateTask (← updateTask pf d req)

/-- `handleEnableTask` after its checks. -/
def enableTask (taskId : String) (enabled : Bool) : Dispatching Response := do
  match (← db (.getTask taskId)).task with
  | none => return .status false "Task not found"
  | some task =>
      if enabled = false then cancel taskId "DB update failed"
      else if task.status = taskRunning then return .status true ""
      else
        let nowMs ← clock
        let nextMs := nextExecution pf task.cronExpr nowMs nowMs
        if nextMs = 0 then return .status false "Invalid cron expression"
        let updated ← updateIdle (.updateTaskRuntime task.id taskScheduled
          (toDatetimeString pf nextMs) task.lastRunAt task.retryCount)
        return .status updated (if updated then "" else "DB update failed")

/-- `handleEnableTask`. -/
def handleEnableTask (payload : List UInt8) : Dispatching RpcResponse :=
  d.withRequest codec .enableTask payload id fun (req : Rpc.EnableTaskRequest) => do
    return codec.taskResponse .enableTask
      (← d.withTaskId req.taskId id (enableTask pf req.taskId req.enabled))

/-- `handleDeleteTask` after its checks. -/
def deleteTask (taskId : String) : Dispatching Response := do
  match (← db (.getTask taskId)).task with
  | none => return .status false "Task not found"
  | some task =>
      if task.status = taskRunning then
        return .status false "Running task cannot be deleted; cancel it first"
      let deleted := (← db (.update (.deleteTask taskId))).ok
      return .status deleted (if deleted then "" else "DB delete failed")

/-- `handleDeleteTask`. -/
def handleDeleteTask (payload : List UInt8) : Dispatching RpcResponse :=
  d.withRequest codec .deleteTask payload id fun (req : Rpc.TaskIdRequest) => do
    return codec.taskResponse .deleteTask (← d.withTaskId req.taskId id (deleteTask req.taskId))

/-- The execution of a claimed task by `handleRunTaskNow`. -/
def executeManually (m : ManualRun) : Dispatching (Thrown Response) := do
  let startMs ← clock
  let steadyStart ← steadyClock
  match ← d.invokeWorker m.task.id m.executionId m.task.handler m.task.params with
  | .error what => return .error what
  | .ok outcome =>
      let endMs ← clock
      let steadyEnd ← steadyClock
      count (.taskDuration (steadyEnd - steadyStart))
      count (if outcome.success then .taskSuccess else .taskFailure)
      let historySaved ← db (.addHistory (manualHistory pf d.cfg m startMs endMs outcome))
      let stateCompleted ← db (.update (.completeTaskExecution m.task.id m.executionId
        m.task.status m.task.nextRunAt (toDatetimeString pf endMs) m.task.retryCount))
      return .ok (manualResponse outcome historySaved.ok stateCompleted.ok)

/-- `handleRunTaskNow` after its checks. -/
def runTaskNow (taskId : String) : Dispatching (Thrown Response) := do
  match (← db (.getTask taskId)).task with
  | none => return .ok (.executed false "" "Task not found")
  | some task =>
      if task.status = taskRunning then return .ok (.executed false "" "Task is already running")
      else if hidle : task.status = taskDisabled ∨ task.status = taskScheduled then
        if (← d.handlerAvailable task.handler) = false then
          return .ok (.error .handlerNotFound ("Handler not found: " ++ task.handler))
        let uuid ← uuid
        let m : ManualRun := ⟨task, manualExecutionId task.id uuid, hidle⟩
        let claimed ← db (.update (.claimTaskExecution task.id m.executionId d.cfg.dispatchNode
          task.status none))
        if claimed.ok = false then
          return .ok (.executed false "" "Task state changed before execution")
        executeManually pf d m
      else return .ok (.executed false "" "Task has an invalid status")

/-- `handleRunTaskNow`. -/
def handleRunTaskNow (payload : List UInt8) : Dispatching (Thrown RpcResponse) :=
  d.withRequest codec .runTaskNow payload .ok fun (req : Rpc.TaskIdRequest) => do
    return (← d.withTaskId req.taskId .ok (runTaskNow pf d req.taskId)).map
      (codec.taskResponse .runTaskNow)

/-- `handleGetMetrics`. -/
def handleGetMetrics (payload : List UInt8) : Dispatching RpcResponse :=
  d.withRequest codec .getMetrics payload id fun (_ : Rpc.GetMetricsRequest) => do
    return codec.makeResponse (.getMetrics (← snapshot))

/-- `handleHealthCheck`: the token of the request is not looked at. -/
def handleHealthCheck (payload : List UInt8) : Dispatching RpcResponse :=
  match codec.parse .healthCheck payload with
  | none => return .error .badRequest "Parse HealthCheckRequest failed"
  | some (req : Rpc.HealthCheckRequest) => do
      let nowMs ← clock
      let known := req.serviceName = "" ∨ req.serviceName = d.serviceName
      return codec.makeResponse (.healthCheck known
        (if known then "SERVING" else "UNKNOWN_SERVICE") d.cfg.nodeId nowMs)

/-- The loop of `handleStreamMetrics`: samples `i`, `i + 1`, ... of `samples`. -/
def sampleMetrics (samples : Nat) : Nat → Nat → Dispatching (List RpcResponse)
  | _, 0 => return []
  | i, rest + 1 => do
      let snapshot ← snapshot
      let later ← sampleMetrics samples (i + 1) rest
      return codec.makeResponse (.streamMetrics i (i + 1 == samples) snapshot) :: later

/-- `handleStreamMetrics`. -/
def handleStreamMetrics (payload : List UInt8) : Dispatching (List RpcResponse) :=
  d.withRequest codec .streamMetrics payload (fun response => [response])
    fun (req : Rpc.StreamMetricsRequest) =>
      let samples := min (if req.samples > 0 then req.samples.toNat else 3) 10
      sampleMetrics codec samples 0 samples

/-! ## Dispatching -/

/-- The `switch` of `dispatchCore`; `StreamMetrics` has no case in it. -/
def handle (payload : List UInt8) (serialId : UInt32) : Dispatching (Thrown RpcResponse) :=
  match Method.ofSerialId? serialId with
  | some .echo => .ok <$> handleEcho d codec payload
  | some .submitTask => .ok <$> handleSubmitTask pf d codec payload
  | some .executeTask => .ok <$> handleExecuteTask d codec payload
  | some .cancelTask => .ok <$> handleCancelTask d codec payload
  | some .listTasks => .ok <$> handleListTasks d codec payload
  | some .listHistory => .ok <$> handleListHistory d codec payload
  | some .listServices => .ok <$> handleListServices d codec payload
  | some .updateTask => .ok <$> handleUpdateTask pf d codec payload
  | some .enableTask => .ok <$> handleEnableTask pf d codec payload
  | some .deleteTask => .ok <$> handleDeleteTask d codec payload
  | some .runTaskNow => handleRunTaskNow pf d codec payload
  | some .getMetrics => .ok <$> handleGetMetrics d codec payload
  | some .healthCheck => .ok <$> handleHealthCheck d codec payload
  | some .streamMetrics | none =>
      return .ok (.error .unknownMethod ("Unknown serial_id: " ++ toString serialId.toNat))

/-- `dispatchCore`. -/
def dispatchCore (payload : List UInt8) (serialId : UInt32) : Dispatching (Thrown RpcResponse) :=
  if d.methodAllowed serialId = false then
    return .ok (.error .unknownMethod "Method is not available on this node role")
  else handle pf d codec payload serialId

/-- `intercept` of the three interceptors; what they log is left out. -/
def intercept (next : Dispatching (Thrown RpcResponse)) :
    RpcInterceptor → Dispatching (Thrown RpcResponse)
  | .logging => next
  | .metrics => do
      count .rpcRequest
      match ← next with
      | .ok response =>
          count (if response.serialId != rpcErrorSerialId then .rpcSuccess else .rpcError)
          return .ok response
      | .error what => return .error what
  | .exception => do
      match ← next with
      | .ok response => return .ok response
      | .error what =>
          return .ok (.error .internalError (what.getD "Unknown RPC exception"))

/-- `dispatchWithContext`. -/
def dispatchWithContext (payload : List UInt8) (serialId : UInt32) :
    Dispatching (Thrown RpcResponse) :=
  d.interceptors.foldr (fun interceptor next => intercept next interceptor)
    (dispatchCore pf d codec payload serialId)

/-- `dispatchStreamWithContext`. -/
def dispatchStreamWithContext (payload : List UInt8) (serialId : UInt32) :
    Dispatching (Thrown (List RpcResponse)) :=
  if serialId ≠ Method.streamMetrics.requestSerialId then do
    return (← dispatchWithContext pf d codec payload serialId).map fun response => [response]
  else if d.methodAllowed serialId = false then
    return .ok [.error .unknownMethod "Method is not available on this node role"]
  else do
    count .rpcRequest
    let responses ← handleStreamMetrics d codec payload
    let success := responses.head?.any fun response => response.serialId != rpcErrorSerialId
    count (if success then .rpcSuccess else .rpcError)
    return .ok responses

end RpcDispatcher

end Corpcron
