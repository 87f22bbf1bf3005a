import Corpcron.Rpc.Authorization

/-!
# Task handlers as programs and as threads

`RpcDispatcher` has a handler as one program over everything it reaches outside
its own memory.  `TaskHandlers` has the six handlers that work on a task as
threads that stop before each call to a store; what they learn on the way from
one call to the next (clocks, ids, discovery, the end of a worker call) is an
`Input`.  `handle_simulated` connects the two: whatever such a handler's program
does, the thread can do, with the same calls and replies and the same answer.

`Simulates next p` is about one stretch of a thread: `next` is where the thread
goes with an input, and `p` is the rest of the program.  There is a rule for each
operation, which fixes the part of the input that the operation answers, so the
proof for a handler follows the text of its program.
-/

namespace Corpcron

open Lib Dispatching RpcDispatcher

/-! ## What both models show -/

/-- The calls to the stores among the operations of a dispatcher. -/
def DispatchOp.access? : DispatchOp → Option Access
  | .db call => some (.db call)
  | .cancelRegistered taskId => some (.process (.cancelTask taskId))
  | _ => none

/-- A call to a store with its reply. -/
def storeCall? : (op : DispatchOp) × op.Reply → Option (Access × Reply)
  | ⟨.db call, reply⟩ => some (.db call, reply)
  | ⟨.cancelRegistered taskId, found⟩ => some (.process (.cancelTask taskId), { ok := found })
  | _ => none

/-- The calls to the stores among the operations a program has performed. -/
def storeCalls (events : List ((op : DispatchOp) × op.Reply)) : List (Access × Reply) :=
  events.filterMap storeCall?

theorem storeCalls_append (first later : List ((op : DispatchOp) × op.Reply)) :
    storeCalls (first ++ later) = storeCalls first ++ storeCalls later :=
  List.filterMap_append

theorem storeCalls_eq_nil {α : Type} {p : Dispatching α} {a : α}
    {events : List ((op : DispatchOp) × op.Reply)} (hp : p.Only (·.access? = none))
    (h : p.Performs events a) : storeCalls events = [] := by
  rw [storeCalls, List.filterMap_eq_nil_iff]
  rintro ⟨op, reply⟩ hevent
  have hnone : op.access? = none := hp.performs h _ hevent
  cases op with
  | db call => cases hnone
  | cancelRegistered taskId => cases hnone
  | _ => rfl

/-- What a handler thread can do from a program counter on: the calls it makes,
with their replies, and its answer. -/
inductive HandlerPc.Answers (pf : Platform) (cfg : NodeConfig) :
    HandlerPc → List (Access × Reply) → Response → Prop
  | replied (response : Response) : Answers pf cfg (.replied response) [] response
  | abandoned (m : ManualRun) (response : Response) :
      Answers pf cfg (.abandoned m response) [] response
  | call {pc : HandlerPc} {calls : List (Access × Reply)} {response : Response} (inp : Input)
      (reply : Reply) (haccess : pc.access pf cfg ≠ .idle)
      (hnext : Answers pf cfg (pc.next pf cfg inp reply) calls response) :
      Answers pf cfg pc ((pc.access pf cfg, reply) :: calls) response
  /-- `invokeWorker` makes no call to a store. -/
  | invoke {m : ManualRun} {startMs : Nat} {calls : List (Access × Reply)} {response : Response}
      (inp : Input)
      (hnext : Answers pf cfg ((HandlerPc.invoking m startMs).next pf cfg inp {}) calls response) :
      Answers pf cfg (.invoking m startMs) calls response

/-! ## Rules -/

/-- Whatever the program does, the thread can do from where some input takes it;
`answer` is the response that goes with a result of the program. -/
def Simulates {α : Type} (pf : Platform) (cfg : NodeConfig) (answer : α → Response)
    (next : Input → HandlerPc) (p : Dispatching α) : Prop :=
  ∀ events a, p.Performs events a →
    ∃ inp, (next inp).Answers pf cfg (storeCalls events) (answer a)

namespace Simulates

variable {α β : Type} {pf : Platform} {cfg : NodeConfig} {answer : α → Response}
    {next : Input → HandlerPc} {p q : Dispatching α}

theorem replied {a : α} (inp : Input) (hnext : next inp = .replied (answer a)) :
    Simulates pf cfg answer next (pure a) := by
  rintro events b ⟨rfl, rfl⟩
  refine ⟨inp, ?_⟩
  rw [hnext]
  exact .replied _

theorem abandoned {a : α} {m : ManualRun} (inp : Input)
    (hnext : next inp = .abandoned m (answer a)) : Simulates pf cfg answer next (pure a) := by
  rintro events b ⟨rfl, rfl⟩
  refine ⟨inp, ?_⟩
  rw [hnext]
  exact .abandoned m _

theorem ite {c : Prop} [Decidable c] (hp : c → Simulates pf cfg answer next p)
    (hq : ¬c → Simulates pf cfg answer next q) :
    Simulates pf cfg answer next (if c then p else q) := by
  split
  · exact hp ‹_›
  · exact hq ‹_›

theorem clock {f : Nat → Dispatching α}
    (hf : ∀ nowMs,
      Simulates pf cfg answer (fun inp => next { inp with clockMs := nowMs }) (f nowMs)) :
    Simulates pf cfg answer next (Dispatching.clock >>= f) := by
  rintro events a ⟨nowMs, later, rfl, h⟩
  obtain ⟨inp, hnext⟩ := hf nowMs later a h
  exact ⟨_, hnext⟩

theorem uuid {f : String → Dispatching α}
    (hf : ∀ id, Simulates pf cfg answer (fun inp => next { inp with uuid := id }) (f id)) :
    Simulates pf cfg answer next (Dispatching.uuid >>= f) := by
  rintro events a ⟨id, later, rfl, h⟩
  obtain ⟨inp, hnext⟩ := hf id later a h
  exact ⟨_, hnext⟩

/-- Operations that no store sees. -/
theorem silent {r : Dispatching β} {f : β → Dispatching α} (hr : r.Only (·.access? = none))
    (hf : ∀ b, Simulates pf cfg answer next (f b)) :
    Simulates pf cfg answer next (r >>= f) := by
  intro events a h
  obtain ⟨first, later, b, rfl, hfirst, hlater⟩ := Program.performs_bind h
  rw [storeCalls_append, storeCalls_eq_nil hr hfirst, List.nil_append]
  exact hf b later a hlater

theorem handlerAvailable {d : RpcDispatcher} {handler : String} {f : Bool → Dispatching α}
    (hf : ∀ found, (∀ inp : Input, inp.handlerAvailable = found →
        Corpcron.handlerAvailable inp handler = found) →
      Simulates pf cfg answer (fun inp => next { inp with handlerAvailable := found }) (f found)) :
    Simulates pf cfg answer next (d.handlerAvailable handler >>= f) := by
  intro events a h
  obtain ⟨first, later, found, rfl, hfirst, hlater⟩ := Program.performs_bind h
  have hsilent : storeCalls first = [] :=
    storeCalls_eq_nil (handlerAvailable_only (fun _ => rfl) (fun _ => rfl) handler) hfirst
  rw [storeCalls_append, hsilent, List.nil_append]
  have hfound : ∀ inp : Input, inp.handlerAvailable = found →
      Corpcron.handlerAvailable inp handler = found := by
    intro inp hinp
    by_cases hempty : handler = ""
    · -- An empty name is refused before anyone is asked.
      simp only [RpcDispatcher.handlerAvailable, hempty, if_true, Program.pure_eq,
        Program.performs_done] at hfirst
      simp [Corpcron.handlerAvailable, hempty, ← hfirst.2]
    · simp [Corpcron.handlerAvailable, hempty, hinp]
  obtain ⟨inp, hnext⟩ := hf found hfound later a hlater
  exact ⟨_, hnext⟩

/-- A call to the database. -/
theorem db {call : DbAccess} {f : Reply → Dispatching α} (inp : Input)
    (haccess : (next inp).access pf cfg = .db call)
    (hf : ∀ reply,
      Simulates pf cfg answer (fun inp' => (next inp).next pf cfg inp' reply) (f reply)) :
    Simulates pf cfg answer next (Dispatching.db call >>= f) := by
  rintro events a ⟨reply, later, rfl, h⟩
  obtain ⟨inp', hnext⟩ := hf reply later a h
  refine ⟨inp, ?_⟩
  change (next inp).Answers pf cfg ((.db call, reply) :: storeCalls later) _
  rw [← haccess]
  exact .call inp' reply (by simp [haccess]) hnext

/-- An `UPDATE` of an idle row with its second query. -/
theorem updateIdle {stmt : Statement} {f : Bool → Dispatching α} (inp : Input)
    (haccess : (next inp).access pf cfg = .db (.update stmt))
    (hnext : ∀ inp' reply, (next inp).next pf cfg inp' reply = afterUpdate reply stmt.taskId)
    (hf : ∀ updated, Simulates pf cfg answer
      (fun _ => .replied (.status updated (if updated then "" else "DB update failed")))
      (f updated)) :
    Simulates pf cfg answer next (Dispatching.updateIdle stmt >>= f) := by
  have hbind : Dispatching.updateIdle stmt >>= f = Dispatching.db (.update stmt) >>= fun reply =>
      if reply.ok then f true
      else if reply.failed then f false
      else Dispatching.db (.taskExistsAndIsNotRunning stmt.taskId) >>= fun reply => f reply.ok := by
    simp only [Dispatching.updateIdle, Dispatching.db, Program.perform_bind, Program.call_bind]
    congr 1
    funext reply
    split
    · rfl
    · split <;> rfl
  rw [hbind]
  refine .db inp haccess fun reply => ?_
  simp only [hnext, afterUpdate]
  refine .ite (fun hok => ?_) fun hok => .ite (fun hfailed => ?_) fun hfailed => ?_
  · simpa [hok] using hf true
  · simpa [hok, hfailed] using hf false
  · simp only [if_neg hok, if_neg hfailed]
    refine .db {} rfl fun reply' => ?_
    cases hok' : reply'.ok
    · simpa [HandlerPc.next, hok'] using hf false
    · simpa [HandlerPc.next, hok'] using hf true

/-- `TaskCancellationRegistry::cancel`. -/
theorem cancelRegistered {taskId : String} {f : Bool → Dispatching α} (inp : Input)
    (hnext : next inp = .cancelingRegistered taskId)
    (hf : ∀ found, Simulates pf cfg answer (fun _ => .replied (.status true "")) (f found)) :
    Simulates pf cfg answer next (Dispatching.cancelRegistered taskId >>= f) := by
  rintro events a ⟨found, later, rfl, h⟩
  obtain ⟨inp', hlater⟩ := hf found later a h
  refine ⟨inp, ?_⟩
  rw [hnext]
  exact .call inp' { ok := found } nofun hlater

/-- A cancel: the row first, with its second query, then the registry. -/
theorem cancel {taskId failure : String} {next : Input → HandlerPc} (inp : Input)
    (hnext : next inp = .canceling taskId taskId failure) :
    Simulates pf cfg id next (RpcDispatcher.cancel taskId failure) := by
  have hbind : RpcDispatcher.cancel taskId failure =
      Dispatching.db (.update (.cancelTask taskId)) >>= fun reply =>
        if reply.ok then
          Dispatching.cancelRegistered taskId >>= fun _ => pure (.status true "")
        else if reply.failed then pure (.status false failure)
        else Dispatching.db (.taskExists taskId) >>= fun reply =>
          if reply.ok then
            Dispatching.cancelRegistered taskId >>= fun _ => pure (.status true "")
          else pure (.status false failure) := by
    simp only [RpcDispatcher.cancel, Dispatching.cancelTask, Dispatching.db, Program.perform_bind,
      Program.call_bind]
    congr 1
    funext reply
    split
    · rfl
    · split <;> rfl
  rw [hbind]
  refine .db inp (by rw [hnext]; rfl) fun reply => ?_
  simp only [hnext, HandlerPc.next]
  refine .ite (fun hok => ?_) fun hok => .ite (fun hfailed => ?_) fun hfailed => ?_
  · exact .cancelRegistered {} (if_pos hok) fun _ => .replied {} rfl
  · exact .replied {} (by rw [if_neg hok, if_pos hfailed]; rfl)
  · simp only [if_neg hok, if_neg hfailed]
    refine .db {} rfl fun reply' => ?_
    simp only [HandlerPc.next]
    refine .ite (fun hok' => ?_) fun hok' => ?_
    · exact .cancelRegistered {} (if_pos hok') fun _ => .replied {} rfl
    · exact .replied {} (if_neg hok')

/-- `invokeWorker` reaches no store, and its end is one that the thread allows
for. -/
theorem invokeWorker {d : RpcDispatcher} {m : ManualRun} {startMs : Nat}
    {taskId executionId params : String}
    {f : Thrown ExecutionOutcome → Dispatching α} (inp : Input)
    (hnext : next inp = .invoking m startMs)
    (hf : ∀ invocation, Simulates pf cfg answer
      (fun inp' => (HandlerPc.invoking m startMs).next pf cfg { inp' with invocation } {})
      (f (Corpcron.invokeWorker d.cfg m.task.handler invocation))) :
    Simulates pf cfg answer next
      (d.invokeWorker taskId executionId m.task.handler params >>= f) := by
  intro events a h
  obtain ⟨first, later, ended, rfl, hfirst, hlater⟩ := Program.performs_bind h
  obtain ⟨first, rest, invocation, rfl, hreach, rfl, rfl⟩ := Program.performs_bind hfirst
  have hsilent : storeCalls first = [] := by
    apply storeCalls_eq_nil _ hreach
    simp [reachHandler, reachWorker_only, DispatchOp.access?]
  rw [List.append_nil, storeCalls_append, hsilent, List.nil_append]
  obtain ⟨inp', hlater⟩ := hf invocation later a hlater
  refine ⟨inp, ?_⟩
  rw [hnext]
  exact .invoke _ hlater

end Simulates

/-! ## The handlers -/

variable {pf : Platform} {d : RpcDispatcher}

theorem submitTask_simulated (req : Rpc.SubmitTaskRequest) :
    Simulates pf d.cfg id
      (fun inp => beginSubmitTask pf d.cfg inp req.cronExpr req.params req.handler)
      (submitTask pf d req) := by
  refine .uuid fun uuid => .ite (fun hempty => ?_) fun hempty => ?_
  · exact .replied {} (if_pos hempty)
  simp only [beginSubmitTask, if_neg hempty]
  refine .handlerAvailable fun found hfound => ?_
  simp only [hfound]
  refine .ite (fun hmissing => ?_) fun hmissing => ?_
  · exact .replied {} (if_pos hmissing)
  simp only [if_neg hmissing]
  refine .clock fun nowMs => .ite (fun hnever => ?_) fun hnever => ?_
  · exact .replied {} (if_pos hnever)
  simp only [if_neg hnever]
  refine .ite (fun hdb => ?_) fun hdb => ?_
  · exact .replied {} (if_pos hdb)
  simp only [if_neg hdb]
  refine .db {} rfl fun reply => .ite (fun hok => ?_) fun hok => ?_
  · exact .replied {} (by simp only [HandlerPc.next, hok]; rfl)
  · exact .replied {} (by simp only [HandlerPc.next, hok]; rfl)

theorem updateTask_simulated {req : Rpc.UpdateTaskRequest} {token : String}
    (hauthorized : d.cfg.authorized token = true) :
    Simulates pf d.cfg id (fun inp => beginCall pf d.cfg inp ⟨token, .updateTask req.task⟩)
      (updateTask pf d req) := by
  simp only [beginCall, hauthorized, Bool.true_eq_false, if_false]
  refine .ite (fun hdb => ?_) fun hdb => ?_
  · exact .replied {} (if_pos hdb)
  simp only [if_neg hdb]
  cases req.task with
  | none => exact .replied {} rfl
  | some info =>
      refine .ite (fun hid => ?_) fun hid => ?_
      · exact .replied {} (if_pos hid)
      simp only [if_neg hid]
      refine .db {} rfl fun reply => ?_
      simp only [HandlerPc.next]
      cases reply.task with
      | none => exact .replied {} rfl
      | some existing =>
          simp only [afterUpdateRead]
          refine .ite (fun hrunning => ?_) fun hrunning => .ite (fun hempty => ?_) fun hempty => ?_
          · exact .replied {} (if_pos hrunning)
          · exact .replied {} (by rw [if_neg hrunning, if_pos hempty]; rfl)
          simp only [if_neg hrunning, if_neg hempty]
          refine .ite (fun hstatus => ?_) fun hstatus => ?_
          · exact .replied {} (by rw [dif_neg (by tauto)]; rfl)
          have hidle : info.status = taskDisabled ∨ info.status = taskScheduled := by tauto
          simp only [dif_pos hidle]
          refine .handlerAvailable fun found hfound => ?_
          simp only [hfound]
          refine .ite (fun hmissing => ?_) fun hmissing => ?_
          · exact .replied {} (if_pos hmissing)
          simp only [if_neg hmissing]
          refine .ite (fun hscheduled => ?_) fun hscheduled => ?_
          · simp only [if_pos hscheduled]
            refine .clock fun nowMs => .ite (fun hnever => ?_) fun hnever => ?_
            · exact .replied {} (if_pos hnever)
            simp only [if_neg hnever]
            exact .updateIdle {} rfl (fun _ _ => rfl) fun updated => .replied {} rfl
          · simp only [if_neg hscheduled]
            exact .updateIdle {} rfl (fun _ _ => rfl) fun updated => .replied {} rfl

theorem enableTask_simulated (taskId : String) (enabled : Bool) :
    Simulates pf d.cfg id (fun _ => .enableReading taskId enabled taskId)
      (enableTask pf taskId enabled) := by
  refine .db {} rfl fun reply => ?_
  simp only [HandlerPc.next]
  cases reply.task with
  | none => exact .replied {} rfl
  | some task =>
      simp only [afterEnableRead]
      refine .ite (fun hdisable => ?_) fun hdisable => .ite (fun hrunning => ?_) fun hrunning => ?_
      · exact .cancel {} (if_pos hdisable)
      · exact .replied {} (by rw [if_neg hdisable, if_pos hrunning]; rfl)
      simp only [if_neg hdisable, if_neg hrunning]
      refine .clock fun nowMs => .ite (fun hnever => ?_) fun hnever => ?_
      · exact .replied {} (if_pos hnever)
      simp only [if_neg hnever]
      exact .updateIdle {} rfl (fun _ _ => rfl) fun updated => .replied {} rfl

theorem deleteTask_simulated (taskId : String) :
    Simulates pf d.cfg id (fun _ => .deleteReading taskId) (deleteTask taskId) := by
  refine .db {} rfl fun reply => ?_
  simp only [HandlerPc.next]
  cases reply.task with
  | none => exact .replied {} rfl
  | some task =>
      simp only [afterDeleteRead]
      refine .ite (fun hrunning => ?_) fun hrunning => ?_
      · exact .replied {} (if_pos hrunning)
      simp only [if_neg hrunning]
      refine .db {} rfl fun reply => ?_
      cases hok : reply.ok <;> exact .replied {} (by simp only [HandlerPc.next, hok]; rfl)

/-- The answer to what `RunTaskNow` returns or throws: `ExceptionInterceptor`
turns an exception into an error. -/
def answered : Thrown Response → Response
  | .ok response => response
  | .error what => .error .internalError (what.getD "Unknown RPC exception")

theorem executeManually_simulated {next : Input → HandlerPc} {m : ManualRun}
    (hnext : ∀ inp, next inp = .invoking m inp.clockMs) :
    Simulates pf d.cfg answered next (executeManually pf d m) := by
  refine .clock fun startMs => .silent (Program.only_perform.mpr rfl) fun steadyStart => ?_
  refine .invokeWorker {} (hnext { clockMs := startMs }) fun invocation => ?_
  simp only [HandlerPc.next]
  cases invokeWorker d.cfg m.task.handler invocation with
  | error what => exact .abandoned {} rfl
  | ok outcome =>
      refine .clock fun endMs => .silent (Program.only_perform.mpr rfl) fun steadyEnd => ?_
      refine .silent (Program.only_perform.mpr rfl) fun _ => ?_
      refine .silent (Program.only_perform.mpr rfl) fun _ => ?_
      refine .db {} rfl fun historySaved => .db {} rfl fun stateCompleted => ?_
      exact .replied {} rfl

theorem runTaskNow_simulated (taskId : String) :
    Simulates pf d.cfg answered (fun _ => .runReading taskId) (runTaskNow pf d taskId) := by
  refine .db {} rfl fun reply => ?_
  simp only [HandlerPc.next]
  cases reply.task with
  | none => exact .replied {} rfl
  | some task =>
      simp only [afterRunRead]
      refine .ite (fun hrunning => ?_) fun hrunning => ?_
      · exact .replied {} (if_pos hrunning)
      simp only [if_neg hrunning]
      by_cases hidle : task.status = taskDisabled ∨ task.status = taskScheduled
      · simp only [dif_pos hidle]
        refine .handlerAvailable fun found hfound => ?_
        simp only [hfound]
        refine .ite (fun hmissing => ?_) fun hmissing => ?_
        · exact .replied {} (if_pos hmissing)
        simp only [if_neg hmissing]
        refine .uuid fun uuid => .db {} rfl fun claimed => ?_
        refine .ite (fun hrefused => ?_) fun hclaimed => ?_
        · exact .replied {} (by simp only [HandlerPc.next, hrefused]; rfl)
        · refine executeManually_simulated fun inp => ?_
          simp [HandlerPc.next, hclaimed]
      · simp only [dif_neg hidle]
        exact .replied {} rfl

/-! ## Requests -/

/-- The checks of a handler that is called with a task id. -/
theorem withTaskId_simulated {α : Type} {answer : α → Response} {refuse : Response → α}
    {taskId : String} {pc : HandlerPc} {body : Dispatching α}
    (hrefuse : ∀ response, answer (refuse response) = response)
    (hbody : Simulates pf d.cfg answer (fun _ => pc) body) :
    Simulates pf d.cfg answer (fun _ => beginWithId d.cfg taskId pc)
      (d.withTaskId taskId refuse body) := by
  simp only [beginWithId]
  refine .ite (fun hid => ?_) fun hid => .ite (fun hdb => ?_) fun hdb => ?_
  · exact .replied {} (by rw [if_pos hid, hrefuse])
  · exact .replied {} (by rw [if_neg hid, if_pos hdb, hrefuse])
  · simpa only [if_neg hid, if_neg hdb] using hbody

/-- A handler with the beginning that all of them share; `finish` is what is sent
for a result of the program. -/
theorem withRequest_simulated {α β : Type} {codec : Codec} {payload : List UInt8} {m : Method}
    {req : m.Request} {request : Request} {refuse : RpcResponse → β} {g : α → β}
    {body : m.Request → Dispatching β} {p : Dispatching α}
    {events : List ((op : DispatchOp) × op.Reply)} {b : β} (answer : α → Response)
    (finish : β → RpcResponse) (hparse : codec.parse m payload = some req)
    (hbody : body req = p >>= fun a => pure (g a))
    (hrefuse : ∀ response, finish (refuse response) = response)
    (hg : ∀ a, finish (g a) = codec.taskResponse m (answer a))
    (hsimulates : d.cfg.authorized (m.authToken req) = true → Simulates pf d.cfg answer
      (fun inp => beginCall pf d.cfg inp ⟨m.authToken req, request⟩) p)
    (h : (d.withRequest codec m payload refuse body).Performs events b) :
    ∃ inp response, (beginCall pf d.cfg inp ⟨m.authToken req, request⟩).Answers pf d.cfg
        (storeCalls events) response ∧ finish b = codec.taskResponse m response := by
  simp only [withRequest, hparse, authorized_eq] at h
  split at h
  · rename_i hrefused
    obtain ⟨rfl, rfl⟩ := h
    refine ⟨{}, .error .unauthorized "Invalid auth token", ?_, hrefuse _⟩
    rw [beginCall, if_pos hrefused]
    exact .replied _
  · rename_i hauthorized
    rw [hbody] at h
    obtain ⟨first, later, a, rfl, hp, rfl, rfl⟩ := Program.performs_bind h
    obtain ⟨inp, hanswers⟩ := hsimulates (by simpa using hauthorized) first a hp
    rw [List.append_nil]
    exact ⟨inp, answer a, hanswers, hg a⟩

/-- The requests that work on a task, as the threads have them, with the id written
like that of the row. -/
def taskRequest? : (m : Method) → m.Request → Option Request
  | .submitTask, req =>
      some (.submitTask (Rpc.SubmitTaskRequest.cronExpr req) (Rpc.SubmitTaskRequest.params req)
        (Rpc.SubmitTaskRequest.handler req))
  | .updateTask, req => some (.updateTask (Rpc.UpdateTaskRequest.task req))
  | .enableTask, req =>
      some (.enableTask (Rpc.EnableTaskRequest.taskId req) (Rpc.EnableTaskRequest.enabled req))
  | .cancelTask, req => some (.cancelTask (Rpc.TaskIdRequest.taskId req))
  | .deleteTask, req => some (.deleteTask (Rpc.TaskIdRequest.taskId req))
  | .runTaskNow, req => some (.runTaskNow (Rpc.TaskIdRequest.taskId req))
  | _, _ => none

/-- What `ExceptionInterceptor` makes of the end of a handler. -/
def intercepted : Thrown RpcResponse → RpcResponse
  | .ok response => response
  | .error what => .error .internalError (what.getD "Unknown RPC exception")

/-- The five handlers that throw nothing. -/
theorem handler_simulated {codec : Codec} {payload : List UInt8} {m : Method} {req : m.Request}
    {request : Request} {body : m.Request → Dispatching Response}
    {events : List ((op : DispatchOp) × op.Reply)} {result : Thrown RpcResponse}
    (hparse : codec.parse m payload = some req)
    (hsimulates : d.cfg.authorized (m.authToken req) = true → Simulates pf d.cfg id
      (fun inp => beginCall pf d.cfg inp ⟨m.authToken req, request⟩) (body req))
    (h : (Except.ok <$> d.withRequest codec m payload id fun req => do
      return codec.taskResponse m (← body req) : Dispatching (Thrown RpcResponse)).Performs events
        result) :
    ∃ inp response, (beginCall pf d.cfg inp ⟨m.authToken req, request⟩).Answers pf d.cfg
        (storeCalls events) response ∧ intercepted result = codec.taskResponse m response := by
  obtain ⟨first, later, response, rfl, hp, rfl, rfl⟩ := Program.performs_bind h
  rw [List.append_nil]
  exact withRequest_simulated id id hparse rfl (fun _ => rfl) (fun _ => rfl) hsimulates hp

/-- Whatever the program of a task handler does for a request, the thread of the
request can do: the same calls to the stores, with the same replies, and an
answer that is sent as the same response. -/
theorem handle_simulated {codec : Codec} {payload : List UInt8} {m : Method} {req : m.Request}
    {request : Request} {events : List ((op : DispatchOp) × op.Reply)}
    {result : Thrown RpcResponse} (hparse : codec.parse m payload = some req)
    (htask : taskRequest? m req = some request)
    (h : (handle pf d codec payload m.requestSerialId).Performs events result) :
    ∃ inp response, (beginCall pf d.cfg inp ⟨m.authToken req, request⟩).Answers pf d.cfg
        (storeCalls events) response ∧ intercepted result = codec.taskResponse m response := by
  simp only [handle, Method.ofSerialId?_eq_some.mpr rfl] at h
  cases m with
  | submitTask =>
      cases htask
      refine handler_simulated hparse (fun hauthorized => ?_) h
      simp only [beginCall, hauthorized, Bool.true_eq_false, if_false]
      exact submitTask_simulated req
  | updateTask =>
      cases htask
      exact handler_simulated hparse updateTask_simulated h
  | enableTask =>
      cases htask
      refine handler_simulated hparse (fun hauthorized => ?_) h
      simp only [beginCall, hauthorized, Bool.true_eq_false, if_false]
      exact withTaskId_simulated (fun _ => rfl) (enableTask_simulated _ _)
  | cancelTask =>
      cases htask
      refine handler_simulated hparse (fun hauthorized => ?_) h
      simp only [beginCall, hauthorized, Bool.true_eq_false, if_false]
      exact withTaskId_simulated (fun _ => rfl) (.cancel {} rfl)
  | deleteTask =>
      cases htask
      refine handler_simulated hparse (fun hauthorized => ?_) h
      simp only [beginCall, hauthorized, Bool.true_eq_false, if_false]
      exact withTaskId_simulated (fun _ => rfl) (deleteTask_simulated _)
  | runTaskNow =>
      cases htask
      refine withRequest_simulated answered intercepted hparse rfl (fun _ => rfl) ?_ ?_ h
      · intro a
        cases a <;> rfl
      · intro hauthorized
        simp only [beginCall, hauthorized, Bool.true_eq_false, if_false]
        exact withTaskId_simulated (fun _ => rfl) (runTaskNow_simulated _)
  | _ => cases htask

/-- Every payload is a `DeleteTask` of the sample task. -/
def deletingCodec : Codec where
  parse
    | .deleteTask, _ => some (⟨"t", ""⟩ : Rpc.TaskIdRequest)
    | _, _ => none
  serialize _ := []

theorem handle_simulated_deleted :
    ∃ inp response, (beginCall utcPlatform { nodeId := "a" } inp
        ⟨"", .deleteTask "t"⟩).Answers utcPlatform { nodeId := "a" }
        [(.db (.getTask "t"), { task := some sampleTask }),
          (.db (.update (.deleteTask "t")), { ok := true })] response ∧
      deletingCodec.makeResponse (.deleteTask true "") =
        deletingCodec.taskResponse .deleteTask response := by
  let d : RpcDispatcher := { cfg := { nodeId := "a" } }
  have hperforms :
      (handle utcPlatform d deletingCodec [] Method.deleteTask.requestSerialId).Performs
      [⟨.db (.getTask "t"), { task := some sampleTask }⟩,
        ⟨.db (.update (.deleteTask "t")), { ok := true }⟩]
      (.ok (deletingCodec.makeResponse (.deleteTask true ""))) :=
    ⟨_, _, rfl, _, _, rfl, rfl, rfl⟩
  exact handle_simulated (m := .deleteTask) rfl rfl hperforms

end Corpcron
