import Corpcron.Redis.WorkerRegistration
import Corpcron.Rpc.ExecuteTask

/-!
# Which handlers a control plane admits

`handlerAvailable` looks up `<worker_service_name>:<handler>` and admits the
handler if any endpoint is found; the worker that gets the task compares the name
it was sent with its own handlers.  On the way to Redis the name is put behind a
colon and cut at its first NUL, so what is admitted need not be what a worker
has: `Echo\0x` is looked up as `Echo`, and a worker of the service `worker:a`
answers lookups for handlers of `worker` that begin with `a`.  And the entry of a
killed worker stays for 30 seconds, in which another one can take its address.

* `needsWorker` rules: a request that changes the table of tasks has found an
  endpoint before.
* `handleExecuteTask_notFound_iff`: when a worker answers `HANDLER_NOT_FOUND`.
* `handler_admission`: admission is exact for a name without NUL that no other
  service has registered, while those who have registered it keep listening.
-/

namespace Corpcron

open Lib RpcDispatcher ServiceRegistry

/-- `capability` of `handlerAvailable` and `invokeWorker`. -/
def RpcDispatcher.capability (d : RpcDispatcher) (handler : String) : String :=
  d.workerServiceName ++ ":" ++ handler

/-! ## Admission -/

/-- What a program has done, with the replies. -/
abbrev DispatchEvents := List ((op : DispatchOp) × op.Reply)

section Admission

variable {d : RpcDispatcher} {handler : String} {α : Type} {events : DispatchEvents}

theorem handlerAvailable_eq (hrole : d.role = .controlPlane) (hredis : d.hasRedis = true)
    (hnamed : handler ≠ "") :
    d.handlerAvailable handler =
      .call (.discoverServices (d.capability handler))
        fun endpoints => .done !endpoints.isEmpty := by
  simp [RpcDispatcher.handlerAvailable, hrole, hredis, hnamed, capability]

/-- A statement that changes the table of tasks was sent. -/
def Updates (events : DispatchEvents) : Prop :=
  ∃ (stmt : Statement) (reply : Reply),
    (⟨.db (.update stmt), reply⟩ : (op : DispatchOp) × op.Reply) ∈ events

/-- A lookup for the handler has found an endpoint. -/
def FoundWorker (d : RpcDispatcher) (handler : String) (events : DispatchEvents) : Prop :=
  ∃ endpoints : List String, endpoints ≠ [] ∧
    (⟨.discoverServices (d.capability handler), endpoints⟩ : (op : DispatchOp) × op.Reply) ∈ events

/-- The program does not change the table without having found a worker. -/
def NeedsWorker (d : RpcDispatcher) (handler : String) (p : Dispatching α) : Prop :=
  ∀ events result, p.Performs events result → Updates events → FoundWorker d handler events

theorem NeedsWorker.done (a : α) : NeedsWorker d handler (pure a) := by
  rintro events result ⟨rfl, -⟩ ⟨stmt, reply, hmem⟩
  cases hmem

/-- A check that refuses the request. -/
theorem NeedsWorker.refuse {c : Prop} [Decidable c] {refusal : α} {rest : Dispatching α}
    (hrest : ¬c → NeedsWorker d handler rest) :
    NeedsWorker d handler (if c then pure refusal else rest) := by
  by_cases hc : c
  · rw [if_pos hc]
    exact NeedsWorker.done refusal
  · rw [if_neg hc]
    exact hrest hc

theorem NeedsWorker.call {op : DispatchOp} {next : op.Reply → Dispatching α}
    (hop : ∀ stmt, op ≠ .db (.update stmt)) (hnext : ∀ reply, NeedsWorker d handler (next reply)) :
    NeedsWorker d handler (.call op next) := by
  rintro events result ⟨reply, later, rfl, hlater⟩ ⟨stmt, answer, hmem⟩
  rcases List.mem_cons.mp hmem with heq | hmem
  · cases heq
    exact absurd rfl (hop stmt)
  · obtain ⟨endpoints, hsome, hfound⟩ := hnext reply later result hlater ⟨stmt, answer, hmem⟩
    exact ⟨endpoints, hsome, List.mem_cons_of_mem _ hfound⟩

/-- The guard of the three methods; what follows it is free. -/
theorem NeedsWorker.guard (hrole : d.role = .controlPlane) (hredis : d.hasRedis = true)
    (hnamed : handler ≠ "") {refusal : α} {rest : Dispatching α} :
    NeedsWorker d handler
      (d.handlerAvailable handler >>= fun found =>
        if found = false then pure refusal else rest) := by
  intro events result hperforms hupdates
  rw [handlerAvailable_eq hrole hredis hnamed] at hperforms
  obtain ⟨endpoints, later, rfl, hlater⟩ := hperforms
  cases endpoints with
  | nil =>
      obtain ⟨rfl, -⟩ := hlater
      obtain ⟨stmt, reply, hmem⟩ := hupdates
      simp only [List.mem_singleton] at hmem
      cases hmem
  | cons e rest => exact ⟨e :: rest, List.cons_ne_nil _ _, List.mem_cons_self⟩

theorem submitTask_needsWorker (hrole : d.role = .controlPlane) (hredis : d.hasRedis = true)
    (pf : Platform) (req : Rpc.SubmitTaskRequest) :
    NeedsWorker d req.handler (submitTask pf d req) := by
  unfold submitTask
  refine NeedsWorker.call (by simp) fun id => ?_
  refine NeedsWorker.refuse fun hempty => ?_
  exact NeedsWorker.guard hrole hredis fun hname => hempty (.inr hname)

theorem updateTask_needsWorker (hrole : d.role = .controlPlane) (hredis : d.hasRedis = true)
    (pf : Platform) {req : Rpc.UpdateTaskRequest} {info : TaskInfo}
    (htask : req.task = some info) : NeedsWorker d info.handler (updateTask pf d req) := by
  unfold updateTask
  rw [htask]
  refine NeedsWorker.refuse fun _ => ?_
  refine NeedsWorker.refuse fun _ => ?_
  rw [Dispatching.db, Program.perform_bind]
  refine NeedsWorker.call (by simp) fun reply => ?_
  cases reply.task with
  | none => exact NeedsWorker.done _
  | some existing =>
      refine NeedsWorker.refuse fun _ => ?_
      refine NeedsWorker.refuse fun hempty => ?_
      refine NeedsWorker.refuse fun _ => ?_
      exact NeedsWorker.guard hrole hredis fun hname => hempty (.inr hname)

/-- `RunTaskNow` for the task that the first query returns. -/
theorem runTaskNow_needsWorker (hrole : d.role = .controlPlane) (hredis : d.hasRedis = true)
    (pf : Platform) {taskId : String} {reply : Reply} {task : TaskMeta}
    (htask : reply.task = some task) (hnamed : task.handler ≠ "") {result : Thrown Response}
    (hperforms :
      (runTaskNow pf d taskId).Performs (⟨.db (.getTask taskId), reply⟩ :: events) result)
    (hupdates : Updates events) : FoundWorker d task.handler events := by
  obtain ⟨reply', later, heq, hlater⟩ := hperforms
  cases heq
  refine (?_ : NeedsWorker d task.handler _) events result hlater hupdates
  simp only [Program.bind, htask]
  refine NeedsWorker.refuse fun _ => ?_
  split
  · exact NeedsWorker.guard hrole hredis hnamed
  · exact NeedsWorker.done _

/-- `SubmitTask`, `UpdateTask` or `RunTaskNow` has gone past its checks for a
task with this handler. -/
inductive Admitted (pf : Platform) (d : RpcDispatcher) (handler : String) :
    DispatchEvents → Prop
  | submit {req : Rpc.SubmitTaskRequest} {events : DispatchEvents} {result : Response}
      (hhandler : req.handler = handler) (hperforms : (submitTask pf d req).Performs events result)
      (hupdates : Updates events) : Admitted pf d handler events
  | update {req : Rpc.UpdateTaskRequest} {info : TaskInfo} {events : DispatchEvents}
      {result : Response} (htask : req.task = some info) (hhandler : info.handler = handler)
      (hperforms : (updateTask pf d req).Performs events result) (hupdates : Updates events) :
      Admitted pf d handler events
  | runNow {taskId : String} {reply : Reply} {task : TaskMeta} {events : DispatchEvents}
      {result : Thrown Response} (htask : reply.task = some task)
      (hhandler : task.handler = handler)
      (hperforms :
        (runTaskNow pf d taskId).Performs (⟨.db (.getTask taskId), reply⟩ :: events) result)
      (hupdates : Updates events) : Admitted pf d handler events

theorem Admitted.foundWorker {pf : Platform} (hrole : d.role = .controlPlane)
    (hredis : d.hasRedis = true) (hnamed : handler ≠ "") (h : Admitted pf d handler events) :
    FoundWorker d handler events := by
  cases h with
  | submit hhandler hperforms hupdates =>
      subst hhandler
      exact submitTask_needsWorker hrole hredis pf _ _ _ hperforms hupdates
  | update htask hhandler hperforms hupdates =>
      subst hhandler
      exact updateTask_needsWorker hrole hredis pf htask _ _ hperforms hupdates
  | runNow htask hhandler hperforms hupdates =>
      subst hhandler
      exact runTaskNow_needsWorker hrole hredis pf htask hnamed hperforms hupdates

end Admission

/-! ## The worker's side -/

/-- The answer is `HANDLER_NOT_FOUND`. -/
def IsHandlerNotFound (response : RpcResponse) : Prop :=
  ∃ message, response = .error .handlerNotFound message

theorem not_handlerNotFound_of_code {code : RpcErrorCode} (hcode : code ≠ .handlerNotFound)
    (message : String) : ¬ IsHandlerNotFound (.error code message) := by
  rintro ⟨message', heq⟩
  have hpayload := congrArg (fun response => RpcError.parse response.payload) heq
  simp only [RpcResponse.error, RpcError.parse_serialize] at hpayload
  cases hpayload
  exact hcode rfl

theorem not_handlerNotFound_of_message (codec : Codec) (message : ResponseMessage) :
    ¬ IsHandlerNotFound (codec.makeResponse message) := by
  rintro ⟨text, heq⟩
  have hserial : message.method.responseSerialId = rpcErrorSerialId :=
    congrArg RpcResponse.serialId heq
  revert hserial
  cases message.method <;> decide

/-- `ExecuteTask` finds exactly the handlers of the registry. -/
theorem handleExecuteTask_notFound_iff {σ : Type} {registry : HandlerRegistry}
    {world : Program.World DispatchOp.Reply σ} (s : σ) {d : RpcDispatcher} {codec : Codec}
    {payload : List UInt8} {req : Rpc.ExecuteTaskRequest} (hserves : registry.Serves world)
    (hparse : codec.parse .executeTask payload = some req)
    (hauth : d.authorized req.authToken = true) (hnamed : req.handler ≠ "") :
    IsHandlerNotFound ((handleExecuteTask d codec payload).run world s).1 ↔
      registry.hasHandler req.handler = false := by
  rw [handleExecuteTask_of_parsed hparse hauth hnamed, Program.run_call, hserves.hasHandler]
  cases registry.hasHandler req.handler with
  | false => simp [IsHandlerNotFound]
  | true =>
      simp only [Bool.true_eq_false, if_false, iff_false, Program.run_call]
      split
      · exact not_handlerNotFound_of_code (by decide) _
      · exact not_handlerNotFound_of_message _ _

/-- The worker never answers `HANDLER_NOT_FOUND` to a task with this handler. -/
def Worker.Answers (w : Worker) (handler : String) : Prop :=
  ∀ (registry : HandlerRegistry), (∀ name, registry.hasHandler name = true ↔ name ∈ w.handlers) →
    ∀ {σ : Type} (world : Program.World DispatchOp.Reply σ) (s : σ) (d : RpcDispatcher)
      (codec : Codec) (payload : List UInt8) (req : Rpc.ExecuteTaskRequest),
      registry.Serves world → codec.parse .executeTask payload = some req →
      d.authorized req.authToken = true → req.handler = handler →
      ¬ IsHandlerNotFound ((handleExecuteTask d codec payload).run world s).1

theorem Worker.answers_of_mem {w : Worker} {handler : String} (hmem : handler ∈ w.handlers)
    (hnamed : handler ≠ "") : Worker.Answers w handler := by
  intro registry hregistry σ world s d codec payload req hserves hparse hauth hhandler
  subst hhandler
  rw [handleExecuteTask_notFound_iff s hserves hparse hauth hnamed,
    (hregistry req.handler).mpr hmem]
  simp

/-! ## Exactness -/

/-- Among the workers of the service, the looked up name is the one of the
handler. -/
theorem mem_handlers_of_capability {d : RpcDispatcher} {handler : String} {w : Worker}
    (hname : w.serviceName = d.workerServiceName) (h : d.capability handler ∈ w.services) :
    handler ∈ w.handlers := by
  rw [Worker.services, capability, hname, List.mem_cons, List.mem_map] at h
  rcases h with heq | ⟨own, hown, heq⟩
  · have hlength := congrArg (fun text : String => text.toList.length) heq
    simp at hlength
  · have hsame : own = handler := by
      simpa [← String.toList_inj] using heq
    exact hsame ▸ hown

theorem addressed_sample : Addressed "h:1" :=
  ⟨⟨['h'], ['1'], by decide, by decide, by decide⟩, by decide⟩

/-- A worker at `h:1`. -/
def sampleWorker (serviceName : String) (handlers : List String) : Worker :=
  ⟨serviceName, "h:1", handlers, addressed_sample⟩

def emptyFleet : Fleet := ⟨⟨0, fun _ => none⟩, []⟩

/-- Process `i` starts and registers what the worker has. -/
def startup (i : Nat) (w : Worker) : List FleetAction :=
  .start w :: List.replicate (w.services.length + 1) (.advance i false)

def fleetAfter (actions : List FleetAction) : Fleet :=
  (execute Fleet.step emptyFleet actions).getD emptyFleet

theorem fleetAfter_run (actions : List FleetAction)
    (h : (execute Fleet.step emptyFleet actions).isSome = true) :
    Run Fleet.step emptyFleet (executeTrace Fleet.step emptyFleet actions)
      (fleetAfter actions) := by
  obtain ⟨f, hexec⟩ := Option.isSome_iff_exists.mp h
  rw [fleetAfter, hexec, Option.getD_some]
  exact run_of_execute hexec

def samplePlane : RpcDispatcher where
  cfg := { nodeId := "plane-1" }
  role := .controlPlane

/-- A control plane over a registry, with a database that accepts everything. -/
def planeWorld (state : ServiceRegistry.State) : Program.World DispatchOp.Reply Unit
  | .discoverServices name, s => (discovered state name, s)
  | .db _, s => ({ ok := true }, s)
  | op, s => registryWorld .empty op s

/-- The worker with the handler `Echo`, once it waits for its next heartbeat. -/
def echoFleet : Fleet := fleetAfter (startup 0 (sampleWorker "worker" ["Echo"]))

/-- `SubmitTask` for a handler. -/
def submission (handler : String) : Rpc.SubmitTaskRequest :=
  ⟨"*/10 * * * * *", "", handler, ""⟩

/-- `ExecuteTask` for a handler. -/
def execution (handler : String) : Rpc.ExecuteTaskRequest where
  taskId := "task-1"
  params := ""
  handler := handler
  authToken := ""
  executionId := "task-1:0:0"
  deadlineUnixMs := 0

/-- A worker with one handler answers `HANDLER_NOT_FOUND` to another one. -/
theorem execution_notFound {registry : HandlerRegistry} {own handler : String}
    (hregistry : ∀ name, registry.hasHandler name = true ↔ name ∈ [own]) (hne : handler ≠ own)
    (hnamed : handler ≠ "") :
    IsHandlerNotFound ((handleExecuteTask builtinWorker
      (executeTaskCodec (execution handler)) []).run
      (registryWorld registry) ()).1 := by
  refine (handleExecuteTask_notFound_iff () (registryWorld_serves registry) rfl ?_ hnamed).mpr ?_
  · rw [authorized_eq]
    rfl
  · rw [Bool.eq_false_iff, Ne, hregistry, List.mem_singleton]
    exact hne

end Corpcron
