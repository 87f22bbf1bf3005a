import Corpcron.Rpc.Authorization
import Corpcron.Rpc.HandlerRegistry

/-!
# What `ExecuteTask` reports about a handler

`handleExecuteTask` keeps no flag for "the handler has thrown": `success` is
that the error text is empty.  The text is the `what()` of the exception, so an
exception with an empty text is reported as a success.  `invokeWorker` in the
same process sets `success` after the call has returned and does not have this
gap.  The handler `Fail` reaches it: its text is the parameter string, which as
a C string is empty when it begins with a NUL.
-/

namespace Corpcron

open Lib RpcDispatcher

/-! ## The bit `success` -/

/-- `success` in the answer of `handleExecuteTask`. -/
def HandlerEnd.reported : HandlerEnd → Bool
  | .ok _ => true
  | .error (some what) => what == ""
  | .error none => false

theorem executeTaskMessage_success (ended : HandlerEnd) :
    ∃ result error, executeTaskMessage ended = .executeTask (HandlerEnd.reported ended) result
      error := by
  rcases ended with (_ | what) | result
  · exact ⟨_, _, rfl⟩
  · exact ⟨_, _, rfl⟩
  · exact ⟨_, _, rfl⟩

theorem reported_eq_returned_iff (ended : HandlerEnd) :
    HandlerEnd.reported ended = HandlerEnd.returned ended ↔ ended ≠ .error (some "") := by
  rcases ended with (_ | what) | result
  · simp [HandlerEnd.reported, HandlerEnd.returned, Except.isOk, Except.toBool]
  · simp [HandlerEnd.reported, HandlerEnd.returned, Except.isOk, Except.toBool]
  · simp [HandlerEnd.reported, HandlerEnd.returned, Except.isOk, Except.toBool]

/-- The in-process path of `invokeWorker` reports what happened. -/
theorem invokeWorker_inProcess (cfg : NodeConfig) (handler : String) (ended : HandlerEnd) :
    ∃ outcome, invokeWorker cfg handler (.inProcess ended) = .ok outcome ∧
      outcome.success = HandlerEnd.returned ended := by
  rcases ended with (_ | what) | result
  · exact ⟨_, rfl, rfl⟩
  · exact ⟨_, rfl, rfl⟩
  · exact ⟨_, rfl, rfl⟩

/-! ## Runs -/

/-- The world answers about handlers from the registry: a handler ends in a way
that its program allows. -/
structure HandlerRegistry.Serves {σ : Type} (registry : HandlerRegistry)
    (world : Program.World DispatchOp.Reply σ) : Prop where
  hasHandler : ∀ handler s, (world (.hasHandler handler) s).1 = registry.hasHandler handler
  execute : ∀ handler context params s,
    (registry.execute handler context params).Returns (world (.execute handler context params) s).1

/-- `context` of `handleExecuteTask`. -/
def Rpc.ExecuteTaskRequest.context (req : Rpc.ExecuteTaskRequest) : TaskExecutionContext :=
  ⟨req.taskId, req.executionId, req.deadlineUnixMs⟩

section Run

variable {σ : Type} {world : Program.World DispatchOp.Reply σ} {s : σ} {d : RpcDispatcher}
  {codec : Codec} {payload : List UInt8} {req : Rpc.ExecuteTaskRequest}

/-- The request passes the checks of `handleExecuteTask` in state `s`: it is
authorised, its handler is registered and its deadline has not passed. -/
structure ExecuteTaskAccepted (world : Program.World DispatchOp.Reply σ) (s : σ)
    (d : RpcDispatcher) (codec : Codec) (payload : List UInt8) (req : Rpc.ExecuteTaskRequest) :
    Prop where
  parsed : codec.parse .executeTask payload = some req
  authorized : d.authorized req.authToken = true
  named : req.handler ≠ ""
  registered : (world (.hasHandler req.handler) s).1 = true
  inTime : req.deadlineUnixMs = 0 ∨
    (world .clock (world (.hasHandler req.handler) s).2).1 < req.deadlineUnixMs

/-- The state in which the handler is called. -/
def stateAtCall (world : Program.World DispatchOp.Reply σ) (s : σ) (handler : String) : σ :=
  (world .clock (world (.hasHandler handler) s).2).2

/-- How the handler of an accepted request ends. -/
def endOfCall (world : Program.World DispatchOp.Reply σ) (s : σ)
    (req : Rpc.ExecuteTaskRequest) : HandlerEnd :=
  (world (.execute req.handler req.context req.params) (stateAtCall world s req.handler)).1

/-- What `handleExecuteTask` does once the token has been compared. -/
theorem handleExecuteTask_of_parsed (hparse : codec.parse .executeTask payload = some req)
    (hauth : d.authorized req.authToken = true) (hnamed : req.handler ≠ "") :
    handleExecuteTask d codec payload =
      .call (.hasHandler req.handler) fun registered =>
        if registered = false then
          .done (.error .handlerNotFound ("Handler not found: " ++ req.handler))
        else .call .clock fun nowMs =>
          if req.deadlineUnixMs > 0 ∧ nowMs ≥ req.deadlineUnixMs then
            .done (.error .deadlineExceeded "Task deadline exceeded before execution")
          else .call (.execute req.handler req.context req.params) fun ended =>
            .done (codec.makeResponse (executeTaskMessage ended)) := by
  have hauth' : d.authorized (Method.executeTask.authToken req) = true := hauth
  unfold handleExecuteTask withRequest
  rw [hparse]
  simp [hauth', hnamed, Rpc.ExecuteTaskRequest.context]

theorem handleExecuteTask_of_accepted (h : ExecuteTaskAccepted world s d codec payload req) :
    ((handleExecuteTask d codec payload).run world s).1 =
        codec.makeResponse (executeTaskMessage (endOfCall world s req)) ∧
      ⟨.execute req.handler req.context req.params, endOfCall world s req⟩ ∈
        (handleExecuteTask d codec payload).trace world s := by
  have hregistered : ¬(world (.hasHandler req.handler) s).1 = false := by simp [h.registered]
  have hinTime : ¬(req.deadlineUnixMs > 0 ∧
      (world .clock (world (.hasHandler req.handler) s).2).1 ≥ req.deadlineUnixMs) := by
    rintro ⟨hpos, hle⟩
    rcases h.inTime with hnone | hlt
    · exact absurd hnone (Nat.pos_iff_ne_zero.mp hpos)
    · exact absurd hlt (Nat.not_lt.mpr hle)
  rw [handleExecuteTask_of_parsed h.parsed h.authorized h.named]
  simp only [Program.run_call, Program.trace, if_neg hregistered, if_neg hinTime]
  exact ⟨rfl, List.mem_cons_of_mem _ (List.mem_cons_of_mem _ List.mem_cons_self)⟩

theorem reachWorker_executes_none {taskId executionId handler params : String}
    {handler' params' : String} {context : TaskExecutionContext} {ended : HandlerEnd} :
    (⟨.execute handler' context params', ended⟩ : (op : DispatchOp) × op.Reply) ∉
      (d.reachWorker taskId executionId handler params).trace world s := by
  intro hmem
  have honly : (d.reachWorker taskId executionId handler params).Only (·.runsHandler = false) := by
    apply reachWorker_only <;> intros <;> rfl
  have hfalse : true = false := honly.trace world s _ hmem
  cases hfalse

theorem reachHandler_of_executed {taskId executionId handler params : String}
    {handler' params' : String} {context : TaskExecutionContext} {ended : HandlerEnd}
    (h : (⟨.execute handler' context params', ended⟩ : (op : DispatchOp) × op.Reply) ∈
      (d.reachHandler taskId executionId handler params).trace world s) :
    ((d.reachHandler taskId executionId handler params).run world s).1 = .inProcess ended := by
  unfold reachHandler at h ⊢
  by_cases hrole : d.role = .combined
  · rw [if_pos hrole] at h ⊢
    simp only [Dispatching.hasHandler, Program.perform_bind, Program.trace, Program.run_call,
      List.mem_cons] at h ⊢
    rcases h with hhas | h
    · cases hhas
    · split at h
      · rename_i hregistered
        rw [if_pos hregistered]
        simp only [Dispatching.clock, Dispatching.execute, Program.perform_bind, Program.pure_eq,
          Program.trace, List.mem_cons, List.not_mem_nil, or_false] at h
        rcases h with hclock | hexecute
        · cases hclock
        · cases hexecute
          rfl
      · exact absurd h reachWorker_executes_none
  · rw [if_neg hrole] at h
    exact absurd h reachWorker_executes_none

/-- A run of `invokeWorker` that calls a handler in the process has the outcome
of that path. -/
theorem invokeWorker_of_executed {taskId executionId handler params : String}
    {handler' params' : String} {context : TaskExecutionContext} {ended : HandlerEnd}
    (h : (⟨.execute handler' context params', ended⟩ : (op : DispatchOp) × op.Reply) ∈
      (d.invokeWorker taskId executionId handler params).trace world s) :
    ((d.invokeWorker taskId executionId handler params).run world s).1 =
      invokeWorker d.cfg handler (.inProcess ended) := by
  unfold RpcDispatcher.invokeWorker at h ⊢
  rw [Program.trace_bind, Program.pure_eq, Program.trace, List.append_nil] at h
  rw [Program.run_bind, reachHandler_of_executed h, Program.pure_eq, Program.run_done]

end Run

/-! ## `Fail` -/

/-- `Fail` as `registerBuiltinTaskHandlers` leaves it. -/
theorem find?_fail {registry registry' : HandlerRegistry}
    (h : registerBuiltinTaskHandlers registry = .ok registry') :
    registry'.find? "Fail" = some fun _ params => failHandler params := by
  simp [registerBuiltinTaskHandlers, HandlerRegistry.registerHandler,
    HandlerRegistry.registerContextHandler, bind, Except.bind] at h
  rw [← h]
  simp

theorem failHandler_returns {params : String} {ended : HandlerEnd}
    (h : (failHandler params).Returns ended) :
    HandlerEnd.returned ended = false ∧
      (ended = .error (some "") ↔ params.toList.head? = some '\x00') := by
  obtain rfl := Program.returns_done.mp h
  refine ⟨rfl, ?_⟩
  have hwhat : throwWhat (if params = "" then "Task failed intentionally" else params) =
      .error (some "") ↔
      cStr (if params = "" then "Task failed intentionally" else params) = "" := by
    simp [throwWhat]
  rw [hwhat, cStr_eq_empty_iff]
  by_cases hempty : params = ""
  · simp [hempty]
  · simp [hempty]

/-! ## The report -/

/-- For an accepted request, `handleExecuteTask` reports success exactly if the
handler has returned, unless the handler ends with a `std::exception` whose text
is empty; the same condition decides whether it agrees with a run of
`invokeWorker` whose in-process call ends the same way.  The built-in `Fail`
never returns and meets the condition unless its parameters begin with a NUL. -/
theorem executeTask_reports_return_iff {σ : Type} (registry : HandlerRegistry)
    (world : Program.World DispatchOp.Reply σ) (s : σ) (d : RpcDispatcher) (codec : Codec)
    (payload : List UInt8) (req : Rpc.ExecuteTaskRequest) (hserves : registry.Serves world)
    (haccepted : ExecuteTaskAccepted world s d codec payload req) :
    ∃ handler ended success result error,
      registry.find? req.handler = some handler ∧
      (handler req.context req.params).Returns ended ∧
      ⟨.execute req.handler req.context req.params, ended⟩ ∈
        (handleExecuteTask d codec payload).trace world s ∧
      ((handleExecuteTask d codec payload).run world s).1 =
        codec.makeResponse (.executeTask success result error) ∧
      ((success = true ↔ HandlerEnd.returned ended = true) ↔ ended ≠ .error (some "")) ∧
      (∀ {σ' : Type} (d' : RpcDispatcher) (world' : Program.World DispatchOp.Reply σ') (s' : σ')
        (taskId executionId : String) (context : TaskExecutionContext),
        (⟨.execute req.handler context req.params, ended⟩ : (op : DispatchOp) × op.Reply) ∈
          (d'.invokeWorker taskId executionId req.handler req.params).trace world' s' →
        ∃ outcome,
          ((d'.invokeWorker taskId executionId req.handler req.params).run world' s').1 =
            .ok outcome ∧
          (outcome.success = true ↔ HandlerEnd.returned ended = true) ∧
          (success = outcome.success ↔ ended ≠ .error (some ""))) ∧
      (∀ registry₀, registerBuiltinTaskHandlers registry₀ = .ok registry → req.handler = "Fail" →
        HandlerEnd.returned ended = false ∧
          (success = false ↔ req.params.toList.head? ≠ some '\x00')) := by
  have hhas : registry.hasHandler req.handler = true := by
    rw [← hserves.hasHandler req.handler s, haccepted.registered]
  obtain ⟨handler, hfind⟩ := Option.isSome_iff_exists.mp hhas
  have hreturns : (handler req.context req.params).Returns (endOfCall world s req) := by
    have hexecute := hserves.execute req.handler req.context req.params
      (stateAtCall world s req.handler)
    rwa [HandlerRegistry.execute, hfind] at hexecute
  obtain ⟨hrun, htrace⟩ := handleExecuteTask_of_accepted haccepted
  obtain ⟨result, error, hmessage⟩ := executeTaskMessage_success (endOfCall world s req)
  have hreported := reported_eq_returned_iff (endOfCall world s req)
  refine ⟨handler, endOfCall world s req, _, result, error, hfind, hreturns, htrace,
    hrun.trans (congrArg codec.makeResponse hmessage), ?_, ?_, ?_⟩
  · rw [← Bool.eq_iff_iff]
    exact hreported
  · intro σ' d' world' s' taskId executionId context hexecuted
    obtain ⟨outcome, houtcome, hsuccess⟩ :=
      invokeWorker_inProcess d'.cfg req.handler (endOfCall world s req)
    refine ⟨outcome, (invokeWorker_of_executed hexecuted).trans houtcome, by rw [hsuccess], ?_⟩
    rw [hsuccess]
    exact hreported
  · intro registry₀ hbuiltin hfail
    rw [hfail, find?_fail hbuiltin] at hfind
    obtain rfl := Option.some.inj hfind
    obtain ⟨hthrown, hempty⟩ := failHandler_returns hreturns
    rw [hthrown] at hreported
    exact ⟨hthrown, hreported.trans (not_congr hempty)⟩

/-- A process with the given handlers and nothing else; its clocks stand
still. -/
def registryWorld (registry : HandlerRegistry) : Program.World DispatchOp.Reply Unit
  | .db _, s => ({}, s)
  | .listTasks _, s => (⟨[], 0⟩, s)
  | .listHistory _, s => (⟨[], 0⟩, s)
  | .discoverServices _, s => ([], s)
  | .cancelRegistered _, s => (false, s)
  | .hasHandler handler, s => (registry.hasHandler handler, s)
  | .execute handler context params, s =>
      let clocks : Program.World HandlerOp.Reply Unit := fun
        | .clock, s => (0, s)
        | .sleepFor _, s => ((), s)
      (((registry.execute handler context params).run clocks ()).1, s)
  | .callWorker _ _, s => (.notSerialized, s)
  | .snapshot, s => ({}, s)
  | .count _, s => ((), s)
  | .clock, s => (0, s)
  | .steadyClock, s => (0, s)
  | .uuid, s => ("", s)

theorem registryWorld_serves (registry : HandlerRegistry) :
    registry.Serves (registryWorld registry) :=
  ⟨fun _ _ => rfl, fun _ _ _ _ => Program.returns_run _ _ _⟩

/-- The handlers of a worker that has registered nothing but the built-in ones. -/
def builtinRegistry : HandlerRegistry :=
  (registerBuiltinTaskHandlers .empty).toOption.getD .empty

/-- `ExecuteTask` for the handler `Fail` with the given parameters. -/
def failRequest (params : String) : Rpc.ExecuteTaskRequest where
  taskId := "task-1"
  params := params
  handler := "Fail"
  authToken := ""
  executionId := "task-1:0:0"
  deadlineUnixMs := 0

/-- Every payload is the given `ExecuteTask`. -/
def executeTaskCodec (req : Rpc.ExecuteTaskRequest) : Codec where
  parse
    | .executeTask, _ => some req
    | _, _ => none
  serialize := fun _ => []

def builtinWorker : RpcDispatcher where
  cfg := { nodeId := "worker-1" }
  role := .worker

theorem failRequest_accepted (params : String) :
    ExecuteTaskAccepted (registryWorld builtinRegistry) () builtinWorker
      (executeTaskCodec (failRequest params)) [] (failRequest params) where
  parsed := rfl
  authorized := by
    rw [authorized_eq]
    rfl
  named := by simp [failRequest]
  registered := rfl
  inTime := .inl rfl

/-- `Fail` with a text: it throws, and that is what is reported. -/
theorem executeTask_reports_fail :
    ∃ ended success result error,
      (⟨.execute "Fail" (failRequest "boom").context "boom", ended⟩ :
          (op : DispatchOp) × op.Reply) ∈
        (handleExecuteTask builtinWorker (executeTaskCodec (failRequest "boom")) []).trace
          (registryWorld builtinRegistry) () ∧
      ((handleExecuteTask builtinWorker (executeTaskCodec (failRequest "boom")) []).run
        (registryWorld builtinRegistry) ()).1 =
          (executeTaskCodec (failRequest "boom")).makeResponse
            (.executeTask success result error) ∧
      HandlerEnd.returned ended = false ∧ success = false := by
  obtain ⟨_, ended, success, result, error, -, -, htrace, hrun, -, -, hfail⟩ :=
    executeTask_reports_return_iff builtinRegistry (registryWorld builtinRegistry) ()
      builtinWorker (executeTaskCodec (failRequest "boom")) [] (failRequest "boom")
      (registryWorld_serves _) (failRequest_accepted "boom")
  obtain ⟨hthrown, hsuccess⟩ := hfail .empty rfl rfl
  exact ⟨ended, success, result, error, htrace, hrun, hthrown, hsuccess.mpr (by decide)⟩

/-- `Fail` with a parameter string that begins with a NUL: the handler throws,
the answer is a success; the in-process call reports the failure. -/
theorem executeTask_reports_thrown_as_success :
    HandlerEnd.returned (endOfCall (registryWorld builtinRegistry) () (failRequest "\x00")) =
        false ∧
      ((handleExecuteTask builtinWorker (executeTaskCodec (failRequest "\x00")) []).run
        (registryWorld builtinRegistry) ()).1 =
          (executeTaskCodec (failRequest "\x00")).makeResponse
            (.executeTask true "Exception: " "") ∧
      ∃ outcome, invokeWorker builtinWorker.cfg "Fail"
          (.inProcess (endOfCall (registryWorld builtinRegistry) () (failRequest "\x00"))) =
            .ok outcome ∧ outcome.success = false := by
  have hend : endOfCall (registryWorld builtinRegistry) () (failRequest "\x00") =
      .error (some "") := by
    have hwhat : cStr "\x00" = "" := cStr_eq_empty_iff.mpr (.inr rfl)
    exact congrArg (fun what => Except.error (some what)) hwhat
  refine ⟨by rw [hend]; rfl, ?_, ?_⟩
  · rw [(handleExecuteTask_of_accepted (failRequest_accepted "\x00")).1, hend]
    rfl
  · rw [hend]
    exact ⟨_, rfl, rfl⟩

end Corpcron
