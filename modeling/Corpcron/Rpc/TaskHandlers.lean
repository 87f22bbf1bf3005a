import Corpcron.Scheduler.Execution

/-!
# The task handlers of `RpcDispatcher`

`beginCall` is what a handler does before its first call to the database:
authorisation, the checks on the request and, for `SubmitTask`, the
computation of the first run.  The handlers that read a task and then write
it back (`UpdateTask`, `EnableTask`, `DeleteTask`, `RunTaskNow`) do so in
separate calls; `HandlerPc` carries what was read from one to the other.

`MySQLClient::updateTaskDefinition` and `updateTaskRuntime` follow an `UPDATE`
that changed nothing by a second query, and so does `cancelTask`; these
queries are the stages `rechecking` and `recheckingCancel`.
-/

namespace Corpcron

/-! ## Requests and responses -/

/-- The fields of `TaskInfo` that `UpdateTask` reads. -/
structure TaskInfo where
  id : String
  cronExpr : String
  params : String
  handler : String
  status : Int
  maxRetries : Int

/-- The requests that read or write a task.  An id is that of the row which the
database finds for the text in the request; its collation ignores case.  Where
the text itself is used as a key, it stands beside the id. -/
inductive Request where
  | submitTask (cronExpr params handler : String)
  | updateTask (task : Option TaskInfo)
  | enableTask (taskId : String) (enabled : Bool) (text : String := taskId)
  | cancelTask (taskId : String) (text : String := taskId)
  | deleteTask (taskId : String)
  | runTaskNow (taskId : String)

/-- The text of a request and the id of its row are equal for the database;
`sameId` is the collation of `tasks.id`. -/
def Request.matched (sameId : String → String → Bool) : Request → Bool
  | .enableTask taskId _ text => sameId text taskId
  | .cancelTask taskId text => sameId text taskId
  | _ => true

/-- A request with its `auth_token`. -/
structure Call where
  authToken : String := ""
  request : Request

/-- The codes of `ErrorCode` these handlers use. -/
inductive ErrorCode where
  | badRequest
  | internalError
  | dbError
  | handlerNotFound
  | unauthorized
deriving DecidableEq

/-- What a handler answers. -/
inductive Response where
  | error (code : ErrorCode) (message : String)
  | submitted (success : Bool) (taskId error : String)
  /-- The responses of `UpdateTask`, `EnableTask`, `CancelTask` and
  `DeleteTask`. -/
  | status (success : Bool) (error : String)
  | executed (success : Bool) (result error : String)
deriving DecidableEq

/-! ## Manual executions -/

/-- The local variables of a `RunTaskNow` that has passed its checks. -/
structure ManualRun where
  task : TaskMeta
  executionId : String
  idle : IdleStatus task.status

/-- `execution_id` of a manual execution. -/
def manualExecutionId (taskId uuid : String) : String :=
  "manual:" ++ taskId ++ ":" ++ uuid

/-- `dispatch_node`. -/
def NodeConfig.dispatchNode (cfg : NodeConfig) : String :=
  if cfg.nodeId = "" then "manual-rpc" else cfg.nodeId

/-- The outcome of a worker's reply in `invokeWorker`; an exception leaves
the function. -/
def workerOutcome : WorkerReply → Except (Option String) ExecutionOutcome
  | .notSerialized => .ok { error := "Failed to serialize ExecuteTaskRequest" }
  | .failed endpoint poolError =>
      .ok { endpoint := endpoint
            error := if poolError = "" then "Worker RPC call failed" else poolError }
  | .rpcError endpoint (some (code, message)) =>
      .ok { endpoint := endpoint, error := "RPC error " ++ toString code ++ ": " ++ message }
  | .rpcError endpoint none =>
      .ok { endpoint := endpoint, error := "Worker RPC error response parse failed" }
  | .unexpected endpoint serialId =>
      .ok { endpoint := endpoint
            error := "Unexpected worker response serial_id: " ++ toString serialId }
  | .unparsable endpoint =>
      .ok { endpoint := endpoint, error := "Failed to parse ExecuteTaskResponse" }
  | .response endpoint success result error =>
      .ok { endpoint := endpoint, success := success, result := result
            error :=
              if success = false ∧ error = "" then "Worker reported task failure" else error }
  | .exception what => .error what

/-- `RpcDispatcher::invokeWorker`. -/
def invokeWorker (cfg : NodeConfig) (handler : String) :
    Invocation → Except (Option String) ExecutionOutcome
  | .inProcess (.ok result) =>
      .ok { success := true, result := result
            endpoint := if cfg.nodeId = "" then "local" else cfg.nodeId }
  | .inProcess (.error (some what)) => .ok { error := what }
  | .inProcess (.error none) => .ok { error := "Unknown handler exception" }
  | .noDiscovery => .ok { error := "Worker discovery is not available" }
  | .noWorker => .ok { error := "No worker available for handler: " ++ handler }
  | .remote reply => workerOutcome reply

/-- The history row of a manual execution. -/
def manualHistory (pf : Platform) (cfg : NodeConfig) (m : ManualRun) (startMs endMs : Nat)
    (outcome : ExecutionOutcome) : TaskHistory where
  executionId := m.executionId
  taskId := m.task.id
  execNode := if outcome.endpoint = "" then cfg.dispatchNode else outcome.endpoint
  success := outcome.success
  result := outcome.result
  error := outcome.error
  startTime := toDatetimeString pf startMs
  endTime := toDatetimeString pf endMs

/-- Append an error text with the separator of `handleRunTaskNow`. -/
def joinError (error extra : String) : String :=
  if error = "" then extra else error ++ "; " ++ extra

/-- The answer of `RunTaskNow`. -/
def manualResponse (outcome : ExecutionOutcome) (historySaved stateCompleted : Bool) :
    Response :=
  let error := if historySaved then outcome.error
    else joinError outcome.error "Failed to persist execution history"
  let error := if stateCompleted then error
    else joinError error "Task state changed while completing execution"
  .executed (outcome.success && historySaved && stateCompleted) outcome.result error

/-! ## Handlers as threads -/

/-- Program counter of a task handler. -/
inductive HandlerPc where
  /-- Before `addTask`. -/
  | submitting (task : TaskMeta) (idle : IdleStatus task.status)
  | updateReading (info : TaskInfo)
  /-- Before the `UPDATE` of `updateTaskDefinition`. -/
  | updating (task : TaskMeta) (idle : IdleStatus task.status)
  | enableReading (taskId : String) (enabled : Bool) (text : String)
  /-- Before the `UPDATE` of `updateTaskRuntime`; `task` is as it was read. -/
  | enabling (task : TaskMeta) (nextRunAt : Option DateTime)
  /-- After an `UPDATE` that changed nothing. -/
  | rechecking (taskId : String)
  /-- Before the `UPDATE` of `cancelTask`; `failure` is the error text if the
  call returns false. -/
  | canceling (taskId text failure : String)
  | recheckingCancel (taskId text failure : String)
  /-- Before `TaskCancellationRegistry::cancel`, which gets the text. -/
  | cancelingRegistered (text : String)
  | deleteReading (taskId : String)
  | deleting (taskId : String)
  | runReading (taskId : String)
  /-- Before `claimTaskExecution`. -/
  | claiming (m : ManualRun)
  /-- In `invokeWorker`. -/
  | invoking (m : ManualRun) (startMs : Nat)
  | recording (m : ManualRun) (startMs endMs : Nat) (outcome : ExecutionOutcome)
  | completing (m : ManualRun) (endTime : Option DateTime) (outcome : ExecutionOutcome)
      (historySaved : Bool)
  /-- Left by an exception between claim and completion. -/
  | abandoned (m : ManualRun) (response : Response)
  | replied (response : Response)

/-- `authorized`: an empty configured token admits everyone. -/
def NodeConfig.authorized (cfg : NodeConfig) (token : String) : Bool :=
  cfg.authToken == "" || cfg.authToken == token

/-- `handlerAvailable`. -/
def handlerAvailable (inp : Input) (handler : String) : Bool :=
  handler != "" && inp.handlerAvailable

/-- `handleSubmitTask` up to `addTask`. -/
def beginSubmitTask (pf : Platform) (cfg : NodeConfig) (inp : Input)
    (cronExpr params handler : String) : HandlerPc :=
  if cronExpr = "" ∨ handler = "" then
    .replied (.error .badRequest "Cron and handler are required")
  else if handlerAvailable inp handler = false then
    .replied (.error .handlerNotFound ("Handler not found: " ++ handler))
  else
    let nextRunMs := nextExecution pf cronExpr inp.clockMs inp.clockMs
    if nextRunMs = 0 then
      .replied (.submitted false "" "Invalid cron expression")
    else if cfg.hasDb = false then
      .replied (.error .dbError "DB client is not available")
    else
      .submitting
        { id := inp.uuid, cronExpr := cronExpr, params := params, handler := handler
          status := taskScheduled, nextRunAt := toDatetimeString pf nextRunMs }
        .scheduled

/-- The checks that `CancelTask`, `EnableTask`, `DeleteTask` and `RunTaskNow`
share. -/
def beginWithId (cfg : NodeConfig) (text : String) (pc : HandlerPc) : HandlerPc :=
  if text = "" then .replied (.error .badRequest "Task id is required")
  else if cfg.hasDb = false then .replied (.error .dbError "DB client is not available")
  else pc

/-- A handler up to its first call to the database. -/
def beginCall (pf : Platform) (cfg : NodeConfig) (inp : Input) (call : Call) : HandlerPc :=
  if cfg.authorized call.authToken = false then
    .replied (.error .unauthorized "Invalid auth token")
  else
    match call.request with
    | .submitTask cronExpr params handler => beginSubmitTask pf cfg inp cronExpr params handler
    | .updateTask info =>
        -- Unlike in the other handlers the database is checked before the id.
        if cfg.hasDb = false then .replied (.error .dbError "DB client is not available")
        else
          match info with
          | none => .replied (.error .badRequest "Task id is required")
          | some info =>
              if info.id = "" then .replied (.error .badRequest "Task id is required")
              else .updateReading info
    | .enableTask taskId enabled text => beginWithId cfg text (.enableReading taskId enabled text)
    | .cancelTask taskId text => beginWithId cfg text (.canceling taskId text "Task not found")
    | .deleteTask taskId => beginWithId cfg taskId (.deleteReading taskId)
    | .runTaskNow taskId => beginWithId cfg taskId (.runReading taskId)

/-- The task `UpdateTask` writes, apart from the time: request fields, and the
bookkeeping columns as they were read. -/
def updatedTask (info : TaskInfo) (existing : TaskMeta) (nextRunAt : Option DateTime) :
    TaskMeta where
  id := info.id
  cronExpr := info.cronExpr
  params := info.params
  handler := info.handler
  status := info.status
  nextRunAt := nextRunAt
  lastRunAt := existing.lastRunAt
  retryCount := existing.retryCount
  maxRetries := if info.maxRetries > 0 then info.maxRetries else 3

/-- `handleUpdateTask` after `getTask`. -/
def afterUpdateRead (pf : Platform) (inp : Input) (info : TaskInfo) :
    Option TaskMeta → HandlerPc
  | none => .replied (.status false "Task not found")
  | some existing =>
      if existing.status = taskRunning then
        .replied (.status false "Running task cannot be edited; cancel it first")
      else if info.cronExpr = "" ∨ info.handler = "" then
        .replied (.error .badRequest "Cron and handler are required")
      else if hidle : info.status = taskDisabled ∨ info.status = taskScheduled then
        if handlerAvailable inp info.handler = false then
          .replied (.error .handlerNotFound ("Handler not found: " ++ info.handler))
        else if info.status = taskScheduled then
          let nextMs := nextExecution pf info.cronExpr inp.clockMs inp.clockMs
          if nextMs = 0 then .replied (.status false "Invalid cron expression")
          else .updating (updatedTask info existing (toDatetimeString pf nextMs)) hidle
        else
          -- A task that is to be disabled keeps the time that was read.
          .updating (updatedTask info existing existing.nextRunAt) hidle
      else
        .replied (.error .badRequest "Task status must be disabled or scheduled")

/-- `handleEnableTask` after `getTask`. -/
def afterEnableRead (pf : Platform) (inp : Input) (taskId : String) (enabled : Bool)
    (text : String) : Option TaskMeta → HandlerPc
  | none => .replied (.status false "Task not found")
  | some task =>
      if enabled = false then .canceling taskId text "DB update failed"
      -- A running task counts as enabled.
      else if task.status = taskRunning then .replied (.status true "")
      else
        let nextMs := nextExecution pf task.cronExpr inp.clockMs inp.clockMs
        if nextMs = 0 then .replied (.status false "Invalid cron expression")
        else .enabling task (toDatetimeString pf nextMs)

/-- `handleDeleteTask` after `getTask`. -/
def afterDeleteRead (taskId : String) : Option TaskMeta → HandlerPc
  | none => .replied (.status false "Task not found")
  | some task =>
      if task.status = taskRunning then
        .replied (.status false "Running task cannot be deleted; cancel it first")
      else .deleting taskId

/-- `handleRunTaskNow` after `getTask`. -/
def afterRunRead (inp : Input) : Option TaskMeta → HandlerPc
  | none => .replied (.executed false "" "Task not found")
  | some task =>
      if task.status = taskRunning then
        .replied (.executed false "" "Task is already running")
      else if hidle : task.status = taskDisabled ∨ task.status = taskScheduled then
        if handlerAvailable inp task.handler = false then
          .replied (.error .handlerNotFound ("Handler not found: " ++ task.handler))
        else .claiming ⟨task, manualExecutionId task.id inp.uuid, hidle⟩
      else
        .replied (.executed false "" "Task has an invalid status")

/-- After the `UPDATE` of `updateTaskDefinition` or `updateTaskRuntime`: only a
statement that was executed and changed nothing is followed by the second
query. -/
def afterUpdate (reply : Reply) (taskId : String) : HandlerPc :=
  if reply.ok then .replied (.status true "")
  else if reply.failed then .replied (.status false "DB update failed")
  else .rechecking taskId

namespace HandlerPc

/-- The call a handler makes. -/
def access (pf : Platform) (cfg : NodeConfig) : HandlerPc → Access
  | .submitting task _ => .db (.update (.addTask task))
  | .updateReading info => .db (.getTask info.id)
  | .updating task _ => .db (.update (.updateTaskDefinition task))
  | .enableReading taskId _ _ => .db (.getTask taskId)
  | .enabling task nextRunAt =>
      .db (.update (.updateTaskRuntime task.id taskScheduled nextRunAt task.lastRunAt
        task.retryCount))
  | .rechecking taskId => .db (.taskExistsAndIsNotRunning taskId)
  | .canceling taskId _ _ => .db (.update (.cancelTask taskId))
  | .recheckingCancel taskId _ _ => .db (.taskExists taskId)
  | .cancelingRegistered text => .process (.cancelTask text)
  | .deleteReading taskId => .db (.getTask taskId)
  | .deleting taskId => .db (.update (.deleteTask taskId))
  | .runReading taskId => .db (.getTask taskId)
  | .claiming m =>
      .db (.update (.claimTaskExecution m.task.id m.executionId cfg.dispatchNode m.task.status
        none))
  | .invoking _ _ => .idle
  | .recording m startMs endMs outcome =>
      .db (.addHistory (manualHistory pf cfg m startMs endMs outcome))
  | .completing m endTime _ _ =>
      .db (.update (.completeTaskExecution m.task.id m.executionId m.task.status
        m.task.nextRunAt endTime m.task.retryCount))
  | .abandoned _ _ => .idle
  | .replied _ => .idle

/-- Where a handler goes with the reply of its call. -/
def next (pf : Platform) (cfg : NodeConfig) (inp : Input) (reply : Reply) :
    HandlerPc → HandlerPc
  | .submitting task _ =>
      if reply.ok then .replied (.submitted true task.id "")
      else .replied (.error .dbError "DB insert failed")
  | .updateReading info => afterUpdateRead pf inp info reply.task
  | .updating task _ => afterUpdate reply task.id
  | .enableReading taskId enabled text => afterEnableRead pf inp taskId enabled text reply.task
  | .enabling task _ => afterUpdate reply task.id
  | .rechecking _ =>
      if reply.ok then .replied (.status true "")
      else .replied (.status false "DB update failed")
  | .canceling taskId text failure =>
      if reply.ok then .cancelingRegistered text
      else if reply.failed then .replied (.status false failure)
      else .recheckingCancel taskId text failure
  | .recheckingCancel _ text failure =>
      if reply.ok then .cancelingRegistered text else .replied (.status false failure)
  | .cancelingRegistered _ => .replied (.status true "")
  | .deleteReading taskId => afterDeleteRead taskId reply.task
  | .deleting _ =>
      if reply.ok then .replied (.status true "")
      else .replied (.status false "DB delete failed")
  | .runReading _ => afterRunRead inp reply.task
  | .claiming m =>
      if reply.ok then .invoking m inp.clockMs
      else .replied (.executed false "" "Task state changed before execution")
  | .invoking m startMs =>
      match invokeWorker cfg m.task.handler inp.invocation with
      | .ok outcome => .recording m startMs inp.clockMs outcome
      | .error what =>
          -- Nothing completes the execution that was claimed.
          .abandoned m (.error .internalError (what.getD "Unknown RPC exception"))
  | .recording m _ endMs outcome =>
      .completing m (toDatetimeString pf endMs) outcome reply.ok
  | .completing _ _ outcome historySaved =>
      .replied (manualResponse outcome historySaved reply.ok)
  | .abandoned m response => .abandoned m response
  | .replied response => .replied response

end HandlerPc

/-! ## What the local parts of a handler can lead to -/

/-- The first program counters of a request. -/
inductive Begins : Request → HandlerPc → Prop
  | replied (request : Request) (response : Response) : Begins request (.replied response)
  | submit (cronExpr params handler : String) (task : TaskMeta)
      (idle : IdleStatus task.status) :
      Begins (.submitTask cronExpr params handler) (.submitting task idle)
  | update (info : TaskInfo) : Begins (.updateTask (some info)) (.updateReading info)
  | enable (taskId : String) (enabled : Bool) (text : String) :
      Begins (.enableTask taskId enabled text) (.enableReading taskId enabled text)
  | cancel (taskId text : String) :
      Begins (.cancelTask taskId text) (.canceling taskId text "Task not found")
  | delete (taskId : String) : Begins (.deleteTask taskId) (.deleteReading taskId)
  | run (taskId : String) : Begins (.runTaskNow taskId) (.runReading taskId)

theorem beginWithId_begins (cfg : NodeConfig) (text : String) {request : Request}
    {pc : HandlerPc} (h : Begins request pc) : Begins request (beginWithId cfg text pc) := by
  unfold beginWithId
  split
  · exact .replied _ _
  · split
    · exact .replied _ _
    · exact h

theorem beginCall_begins (pf : Platform) (cfg : NodeConfig) (inp : Input) (call : Call) :
    Begins call.request (beginCall pf cfg inp call) := by
  obtain ⟨token, request⟩ := call
  unfold beginCall
  split
  · exact .replied _ _
  · cases request with
    | submitTask cronExpr params handler =>
        simp only [beginSubmitTask]
        split
        · exact .replied _ _
        · split
          · exact .replied _ _
          · split
            · exact .replied _ _
            · split
              · exact .replied _ _
              · exact .submit cronExpr params handler _ _
    | updateTask info =>
        dsimp only
        split
        · exact .replied _ _
        · cases info with
          | none => exact .replied _ _
          | some info =>
              dsimp only
              split
              · exact .replied _ _
              · exact .update info
    | enableTask taskId enabled text =>
        exact beginWithId_begins cfg text (.enable taskId enabled text)
    | cancelTask taskId text => exact beginWithId_begins cfg text (.cancel taskId text)
    | deleteTask taskId => exact beginWithId_begins cfg taskId (.delete taskId)
    | runTaskNow taskId => exact beginWithId_begins cfg taskId (.run taskId)

/-- `UpdateTask` writes a task with the bookkeeping columns it has read. -/
theorem afterUpdateRead_cases (pf : Platform) (inp : Input) (info : TaskInfo)
    (read : Option TaskMeta) :
    (∃ response, afterUpdateRead pf inp info read = .replied response) ∨
      ∃ existing next idle, read = some existing ∧
        afterUpdateRead pf inp info read = .updating (updatedTask info existing next) idle := by
  cases read with
  | none => exact Or.inl ⟨_, rfl⟩
  | some existing =>
      simp only [afterUpdateRead]
      split
      · exact Or.inl ⟨_, rfl⟩
      · split
        · exact Or.inl ⟨_, rfl⟩
        · split
          · rename_i hidle
            split
            · exact Or.inl ⟨_, rfl⟩
            · split
              · split
                · exact Or.inl ⟨_, rfl⟩
                · exact Or.inr ⟨existing, _, hidle, rfl, rfl⟩
              · exact Or.inr ⟨existing, _, hidle, rfl, rfl⟩
          · exact Or.inl ⟨_, rfl⟩

/-- `EnableTask` cancels, or writes the task it has read with a new time. -/
theorem afterEnableRead_cases (pf : Platform) (inp : Input) (taskId : String) (enabled : Bool)
    (text : String) (read : Option TaskMeta) :
    (∃ response, afterEnableRead pf inp taskId enabled text read = .replied response) ∨
      (enabled = false ∧
        afterEnableRead pf inp taskId enabled text read =
          .canceling taskId text "DB update failed") ∨
      ∃ task next, read = some task ∧
        enabled = true ∧ afterEnableRead pf inp taskId enabled text read = .enabling task next := by
  cases read with
  | none => exact Or.inl ⟨_, rfl⟩
  | some task =>
      simp only [afterEnableRead]
      split
      · rename_i hdisable
        exact Or.inr (Or.inl ⟨hdisable, rfl⟩)
      · rename_i henable
        split
        · exact Or.inl ⟨_, rfl⟩
        · split
          · exact Or.inl ⟨_, rfl⟩
          · exact Or.inr (Or.inr ⟨task, _, rfl, by simpa using henable, rfl⟩)

theorem afterDeleteRead_cases (taskId : String) (read : Option TaskMeta) :
    (∃ response, afterDeleteRead taskId read = .replied response) ∨
      afterDeleteRead taskId read = .deleting taskId := by
  cases read with
  | none => exact Or.inl ⟨_, rfl⟩
  | some task =>
      simp only [afterDeleteRead]
      split
      · exact Or.inl ⟨_, rfl⟩
      · exact Or.inr rfl

/-- `RunTaskNow` claims for the task it has read. -/
theorem afterRunRead_cases (inp : Input) (read : Option TaskMeta) :
    (∃ response, afterRunRead inp read = .replied response) ∨
      ∃ m : ManualRun, read = some m.task ∧
        m.executionId = manualExecutionId m.task.id inp.uuid ∧
        afterRunRead inp read = .claiming m := by
  cases read with
  | none => exact Or.inl ⟨_, rfl⟩
  | some task =>
      simp only [afterRunRead]
      split
      · exact Or.inl ⟨_, rfl⟩
      · split
        · rename_i hidle
          split
          · exact Or.inl ⟨_, rfl⟩
          · exact Or.inr ⟨⟨task, _, hidle⟩, rfl, rfl, rfl⟩
        · exact Or.inl ⟨_, rfl⟩

theorem afterUpdate_cases (reply : Reply) (taskId : String) :
    (∃ response, afterUpdate reply taskId = .replied response) ∨
      afterUpdate reply taskId = .rechecking taskId := by
  unfold afterUpdate
  split
  · exact Or.inl ⟨_, rfl⟩
  · split
    · exact Or.inl ⟨_, rfl⟩
    · exact Or.inr rfl

end Corpcron
