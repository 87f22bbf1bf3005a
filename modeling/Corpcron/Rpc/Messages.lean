import Corpcron.Rpc.RpcError
import Corpcron.Rpc.TaskHandlers

/-!
# The methods of the service and their messages

`rpc.proto` declares fourteen methods.  A request type has the fields the
dispatcher reads; a response is one of the messages of `ResponseMessage`.  How
messages are laid out on the wire is the protobuf library's business: `Codec`
holds its parsers and its serializer, and nothing is assumed about them.
-/

namespace Corpcron

/-! ## Methods -/

/-- The methods of the service `CorpCronRpc`. -/
inductive Method where
  | echo
  | submitTask
  | executeTask
  | cancelTask
  | listTasks
  | listHistory
  | listServices
  | updateTask
  | enableTask
  | deleteTask
  | runTaskNow
  | getMetrics
  | healthCheck
  | streamMetrics
deriving DecidableEq

namespace Method

/-- The name of a method. -/
def name : Method → String
  | .echo => "Echo"
  | .submitTask => "SubmitTask"
  | .executeTask => "ExecuteTask"
  | .cancelTask => "CancelTask"
  | .listTasks => "ListTasks"
  | .listHistory => "ListHistory"
  | .listServices => "ListServices"
  | .updateTask => "UpdateTask"
  | .enableTask => "EnableTask"
  | .deleteTask => "DeleteTask"
  | .runTaskNow => "RunTaskNow"
  | .getMetrics => "GetMetrics"
  | .healthCheck => "HealthCheck"
  | .streamMetrics => "StreamMetrics"

/-- The serial id of its request, `k<Name>RequestSerialId`. -/
def requestSerialId : Method → UInt32
  | .echo => 1
  | .submitTask => 3
  | .executeTask => 5
  | .cancelTask => 7
  | .listTasks => 9
  | .listHistory => 11
  | .listServices => 13
  | .updateTask => 15
  | .enableTask => 17
  | .deleteTask => 19
  | .runTaskNow => 21
  | .getMetrics => 23
  | .healthCheck => 25
  | .streamMetrics => 27

/-- The serial id of its response, `k<Name>ResponseSerialId`. -/
def responseSerialId (m : Method) : UInt32 := m.requestSerialId + 1

/-- All methods, in the order of their serial ids. -/
def all : List Method :=
  [.echo, .submitTask, .executeTask, .cancelTask, .listTasks, .listHistory, .listServices,
    .updateTask, .enableTask, .deleteTask, .runTaskNow, .getMetrics, .healthCheck,
    .streamMetrics]

/-- The method with the given request id. -/
def ofSerialId? (serialId : UInt32) : Option Method :=
  all.find? fun m => m.requestSerialId == serialId

theorem mem_all (m : Method) : m ∈ all := by
  cases m <;> decide

theorem requestSerialId_injective {m m' : Method} (h : m.requestSerialId = m'.requestSerialId) :
    m = m' := by
  cases m <;> cases m' <;> first | rfl | exact absurd h (by decide)

theorem ofSerialId?_eq_some {serialId : UInt32} {m : Method} :
    ofSerialId? serialId = some m ↔ m.requestSerialId = serialId := by
  constructor
  · intro h
    simpa using List.find?_some h
  · rintro rfl
    cases hfind : ofSerialId? m.requestSerialId with
    | none =>
        have hnone := List.find?_eq_none.mp hfind m (mem_all m)
        simp at hnone
    | some m' =>
        have hid : m'.requestSerialId = m.requestSerialId := by simpa using List.find?_some hfind
        rw [requestSerialId_injective hid]

end Method

/-! ## Requests -/

namespace Rpc

structure EchoRequest where
  message : String
  authToken : String

structure SubmitTaskRequest where
  cronExpr : String
  params : String
  handler : String
  authToken : String

structure ExecuteTaskRequest where
  taskId : String
  params : String
  handler : String
  authToken : String
  executionId : String
  deadlineUnixMs : Nat

/-- `CancelTaskRequest`, `DeleteTaskRequest` and `RunTaskNowRequest`. -/
structure TaskIdRequest where
  taskId : String
  authToken : String

structure ListTasksRequest where
  authToken : String
  limit : Int
  enabledOnly : Bool
  offset : Int
  statusFilter : Int
  keyword : String
  hasStatusFilter : Bool

structure ListHistoryRequest where
  authToken : String
  taskId : String
  limit : Int
  offset : Int
  successFilter : Int
  keyword : String
  hasSuccessFilter : Bool

structure ListServicesRequest where
  authToken : String
  serviceName : String

structure UpdateTaskRequest where
  authToken : String
  task : Option TaskInfo

structure EnableTaskRequest where
  authToken : String
  taskId : String
  enabled : Bool

structure GetMetricsRequest where
  authToken : String

structure HealthCheckRequest where
  serviceName : String
  authToken : String

structure StreamMetricsRequest where
  authToken : String
  samples : Int

end Rpc

/-- The request type of a method. -/
def Method.Request : Method → Type
  | .echo => Rpc.EchoRequest
  | .submitTask => Rpc.SubmitTaskRequest
  | .executeTask => Rpc.ExecuteTaskRequest
  | .cancelTask => Rpc.TaskIdRequest
  | .listTasks => Rpc.ListTasksRequest
  | .listHistory => Rpc.ListHistoryRequest
  | .listServices => Rpc.ListServicesRequest
  | .updateTask => Rpc.UpdateTaskRequest
  | .enableTask => Rpc.EnableTaskRequest
  | .deleteTask => Rpc.TaskIdRequest
  | .runTaskNow => Rpc.TaskIdRequest
  | .getMetrics => Rpc.GetMetricsRequest
  | .healthCheck => Rpc.HealthCheckRequest
  | .streamMetrics => Rpc.StreamMetricsRequest

/-- `auth_token` of a request. -/
def Method.authToken : (m : Method) → m.Request → String
  | .echo, req => Rpc.EchoRequest.authToken req
  | .submitTask, req => Rpc.SubmitTaskRequest.authToken req
  | .executeTask, req => Rpc.ExecuteTaskRequest.authToken req
  | .cancelTask, req => Rpc.TaskIdRequest.authToken req
  | .listTasks, req => Rpc.ListTasksRequest.authToken req
  | .listHistory, req => Rpc.ListHistoryRequest.authToken req
  | .listServices, req => Rpc.ListServicesRequest.authToken req
  | .updateTask, req => Rpc.UpdateTaskRequest.authToken req
  | .enableTask, req => Rpc.EnableTaskRequest.authToken req
  | .deleteTask, req => Rpc.TaskIdRequest.authToken req
  | .runTaskNow, req => Rpc.TaskIdRequest.authToken req
  | .getMetrics, req => Rpc.GetMetricsRequest.authToken req
  | .healthCheck, req => Rpc.HealthCheckRequest.authToken req
  | .streamMetrics, req => Rpc.StreamMetricsRequest.authToken req

/-! ## Responses -/

/-- `MetricsSnapshot`. -/
structure MetricsSnapshot where
  rpcRequestsTotal : Nat := 0
  rpcSuccessTotal : Nat := 0
  rpcErrorTotal : Nat := 0
  activeConnections : Nat := 0
  rejectedConnections : Nat := 0
  malformedFrames : Nat := 0
  bytesInTotal : Nat := 0
  bytesOutTotal : Nat := 0
  taskSuccessTotal : Nat := 0
  taskFailureTotal : Nat := 0
  lockAcquireSuccessTotal : Nat := 0
  lockAcquireFailureTotal : Nat := 0
  maxTaskDurationMs : Nat := 0
  taskDurationP95Ms : Nat := 0
  taskDurationP99Ms : Nat := 0
  taskDurationSamplesTotal : Nat := 0
  scheduleDelayMaxMs : Nat := 0
  scheduleDelayP95Ms : Nat := 0
  scheduleDelayP99Ms : Nat := 0
  scheduleDelaySamplesTotal : Nat := 0

/-- The response messages, with the fields the dispatcher sets. -/
inductive ResponseMessage where
  | echo (message : String)
  | submitTask (taskId : String) (success : Bool) (error : String)
  | executeTask (success : Bool) (result error : String)
  | cancelTask (success : Bool) (error : String)
  | listTasks (tasks : List TaskMeta) (total offset limit : Nat)
  | listHistory (history : List TaskHistory) (total offset limit : Nat)
  | listServices (endpoints : List String)
  | updateTask (success : Bool) (error : String)
  | enableTask (success : Bool) (error : String)
  | deleteTask (success : Bool) (error : String)
  | runTaskNow (success : Bool) (result error : String)
  | getMetrics (snapshot : MetricsSnapshot)
  | healthCheck (serving : Bool) (status nodeId : String) (unixTimeMs : Nat)
  | streamMetrics (sequence : Nat) (endOfStream : Bool) (snapshot : MetricsSnapshot)

/-- The method a response message belongs to. -/
def ResponseMessage.method : ResponseMessage → Method
  | .echo _ => .echo
  | .submitTask _ _ _ => .submitTask
  | .executeTask _ _ _ => .executeTask
  | .cancelTask _ _ => .cancelTask
  | .listTasks _ _ _ _ => .listTasks
  | .listHistory _ _ _ _ => .listHistory
  | .listServices _ => .listServices
  | .updateTask _ _ => .updateTask
  | .enableTask _ _ => .enableTask
  | .deleteTask _ _ => .deleteTask
  | .runTaskNow _ _ _ => .runTaskNow
  | .getMetrics _ => .getMetrics
  | .healthCheck _ _ _ _ => .healthCheck
  | .streamMetrics _ _ _ => .streamMetrics

/-- `ParseFromString` of every request type and `SerializeToString` of the
responses. -/
structure Codec where
  parse : (m : Method) → List UInt8 → Option m.Request
  serialize : ResponseMessage → List UInt8

/-- `make_response`. -/
def Codec.makeResponse (codec : Codec) (message : ResponseMessage) : RpcResponse :=
  ⟨message.method.responseSerialId, codec.serialize message⟩

/-! ## The answers of the task handlers -/

/-- The codes of the task handlers in the enumeration of `rpc.proto`. -/
def ErrorCode.toRpc : ErrorCode → RpcErrorCode
  | .badRequest => .badRequest
  | .internalError => .internalError
  | .dbError => .dbError
  | .handlerNotFound => .handlerNotFound
  | .unauthorized => .unauthorized

/-- The answer of a handler that reports success and an error text. -/
def statusMessage (m : Method) (success : Bool) (error : String) : ResponseMessage :=
  match m with
  | .cancelTask => .cancelTask success error
  | .updateTask => .updateTask success error
  | .enableTask => .enableTask success error
  | _ => .deleteTask success error

/-- The frame content for the answer of the task handler of method `m`. -/
def Codec.taskResponse (codec : Codec) (m : Method) : Response → RpcResponse
  | .error code message => .error code.toRpc message
  | .submitted success taskId error => codec.makeResponse (.submitTask taskId success error)
  | .status success error => codec.makeResponse (statusMessage m success error)
  | .executed success result error => codec.makeResponse (.runTaskNow success result error)

end Corpcron
