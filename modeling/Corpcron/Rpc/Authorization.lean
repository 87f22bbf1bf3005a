import Corpcron.Rpc.RpcDispatcher
import Corpcron.System.Deployment

/-!
# What a request without the token can do

A dispatcher with a token compares it before a handler does anything else, so
the program of a request without it is finished as soon as the payload has been
parsed.  Around it there are only the counters of `Metrics`, which answer
nothing: the response does not depend on the state of any store.

The roles restrict what the handlers can reach.  `ExecuteTask` is the only one
that calls a registered handler on a control plane, and the methods open on a
worker do not use the database.
-/

namespace Corpcron

open Lib Dispatching RpcDispatcher

/-! ## Kinds of operations -/

/-- The counters, which answer nothing. -/
def DispatchOp.counts : DispatchOp → Bool
  | .count _ => true
  | _ => false

theorem DispatchOp.exists_of_counts {op : DispatchOp} (h : op.counts = true) :
    ∃ event, op = .count event := by
  cases op with
  | count event => exact ⟨event, rfl⟩
  | _ => cases h

theorem DispatchOp.subsingleton_of_counts {op : DispatchOp} (h : op.counts = true) :
    Subsingleton op.Reply := by
  cases op with
  | count event => exact inferInstanceAs (Subsingleton Unit)
  | _ => cases h

/-- Whether an operation runs a handler in the process. -/
def DispatchOp.runsHandler : DispatchOp → Bool
  | .execute _ _ _ => true
  | _ => false

/-- Whether an operation counts a request or its outcome. -/
def DispatchOp.countsRpc : DispatchOp → Bool
  | .count .rpcRequest | .count .rpcSuccess | .count .rpcError => true
  | _ => false

/-- Whether an operation goes to MySQL. -/
def DispatchOp.touchesMySQL : DispatchOp → Bool
  | .db _ | .listTasks _ | .listHistory _ => true
  | _ => false

namespace RpcDispatcher

/-! ## The token -/

theorem difference_eq_zero {as bs : List UInt8} (hlength : as.length = bs.length) :
    difference as bs = 0 ↔ as = bs := by
  induction as generalizing bs with
  | nil =>
      cases bs with
      | nil => simp [difference]
      | cons b bs => simp at hlength
  | cons a as ih =>
      cases bs with
      | nil => simp at hlength
      | cons b bs =>
          have hrest : as.length = bs.length := by simpa using hlength
          rw [difference, UInt8.or_eq_zero_iff, UInt8.xor_eq_zero_iff, ih hrest, List.cons.injEq]

theorem authorized_iff (d : RpcDispatcher) (htoken : d.cfg.authToken ≠ "") (token : String) :
    d.authorized token = true ↔ stringBytes d.cfg.authToken = stringBytes token := by
  have hbytes : (stringBytes d.cfg.authToken).isEmpty = false := by
    rw [List.isEmpty_eq_false_iff]
    exact fun hnil => htoken (stringBytes_injective hnil)
  by_cases hlength : (stringBytes d.cfg.authToken).length = (stringBytes token).length
  · simp [authorized, hbytes, hlength, difference_eq_zero hlength]
  · have hne : stringBytes d.cfg.authToken ≠ stringBytes token := fun h => hlength (by rw [h])
    simp [authorized, hbytes, hlength, hne]

/-- The comparison of the dispatcher is the one of the task handlers. -/
theorem authorized_eq (d : RpcDispatcher) (token : String) :
    d.authorized token = d.cfg.authorized token := by
  by_cases htoken : d.cfg.authToken = ""
  · simp [authorized, NodeConfig.authorized, htoken, stringBytes]
  · rw [Bool.eq_iff_iff, authorized_iff d htoken]
    constructor
    · intro h
      simp [NodeConfig.authorized, stringBytes_injective h]
    · intro h
      have heq : d.cfg.authToken = token := by simpa [NodeConfig.authorized, htoken] using h
      rw [heq]

/-! ## Refused requests -/

/-- The payload parses to a request of the method called that carries the token
of the dispatcher. -/
def CarriesToken (d : RpcDispatcher) (codec : Codec) (payload : List UInt8) (serialId : UInt32) :
    Prop :=
  ∃ m req, Method.ofSerialId? serialId = some m ∧ codec.parse m payload = some req ∧
    m.authToken req = d.cfg.authToken

variable {pf : Platform} {d : RpcDispatcher} {codec : Codec} {payload : List UInt8}
  {serialId : UInt32}

theorem withRequest_refused {α : Type} {m : Method} {refuse : RpcResponse → α}
    {body : m.Request → Dispatching α} (htoken : d.cfg.authToken ≠ "")
    (hid : Method.ofSerialId? serialId = some m) (h : ¬CarriesToken d codec payload serialId) :
    ∃ response, d.withRequest codec m payload refuse body = .done (refuse response) := by
  unfold withRequest
  cases hparse : codec.parse m payload with
  | none => exact ⟨_, rfl⟩
  | some req =>
      have hrefused : d.authorized (m.authToken req) = false := by
        rw [← Bool.not_eq_true, authorized_iff d htoken]
        exact fun heq => h ⟨m, req, hid, hparse, (stringBytes_injective heq).symm⟩
      exact ⟨_, if_pos hrefused⟩

theorem handle_refused (htoken : d.cfg.authToken ≠ "")
    (hserial : serialId ≠ Method.healthCheck.requestSerialId)
    (h : ¬CarriesToken d codec payload serialId) :
    ∃ response, handle pf d codec payload serialId = .done response := by
  unfold handle
  split
  case h_13 hid => exact absurd (Method.ofSerialId?_eq_some.mp hid).symm hserial
  case h_11 hid =>
    obtain ⟨response, hdone⟩ := withRequest_refused htoken hid h
    exact ⟨_, hdone⟩
  case h_14 => exact ⟨_, rfl⟩
  case h_15 => exact ⟨_, rfl⟩
  all_goals
    rename_i hid
    obtain ⟨response, hdone⟩ := withRequest_refused htoken hid h
    exact ⟨.ok response, congrArg (Except.ok <$> ·) hdone⟩

theorem dispatchCore_refused (htoken : d.cfg.authToken ≠ "")
    (hserial : serialId ≠ Method.healthCheck.requestSerialId)
    (h : ¬CarriesToken d codec payload serialId) :
    ∃ response, dispatchCore pf d codec payload serialId = .done response := by
  unfold dispatchCore
  split
  · exact ⟨_, rfl⟩
  · exact handle_refused htoken hserial h

theorem handleStreamMetrics_refused (htoken : d.cfg.authToken ≠ "")
    (hserial : serialId = Method.streamMetrics.requestSerialId)
    (h : ¬CarriesToken d codec payload serialId) :
    ∃ responses, handleStreamMetrics d codec payload = .done responses := by
  have hid : Method.ofSerialId? serialId = some .streamMetrics :=
    Method.ofSerialId?_eq_some.mpr hserial.symm
  obtain ⟨response, hdone⟩ := withRequest_refused htoken hid h
  exact ⟨_, hdone⟩

variable {P : DispatchOp → Prop}

/-- The interceptors perform nothing but counting. -/
theorem intercept_only (hcount : ∀ event, P (.count event))
    {next : Dispatching (Thrown RpcResponse)} (hnext : next.Only P) (i : RpcInterceptor) :
    (intercept next i).Only P := by
  cases i with
  | logging => exact hnext
  | metrics =>
      refine Program.only_bind (Program.only_perform.mpr (hcount _)) fun _ => ?_
      refine Program.only_bind hnext fun result => ?_
      cases result with
      | ok response => exact ⟨hcount _, fun _ => trivial⟩
      | error what => trivial
  | exception =>
      refine Program.only_bind hnext fun result => ?_
      cases result <;> trivial

theorem dispatchWithContext_only (hcount : ∀ event, P (.count event))
    (hcore : (dispatchCore pf d codec payload serialId).Only P) :
    (dispatchWithContext pf d codec payload serialId).Only P := by
  unfold dispatchWithContext
  induction d.interceptors with
  | nil => exact hcore
  | cons i rest ih => exact intercept_only hcount ih i

theorem dispatchStreamWithContext_only (hcount : ∀ event, P (.count event))
    (hcore : (dispatchCore pf d codec payload serialId).Only P)
    (hstream : serialId = Method.streamMetrics.requestSerialId →
      d.methodAllowed serialId = true → (handleStreamMetrics d codec payload).Only P) :
    (dispatchStreamWithContext pf d codec payload serialId).Only P := by
  unfold dispatchStreamWithContext
  rw [Program.only_ite]
  refine ⟨fun _ => ?_, fun hserial => ?_⟩
  · exact Program.only_bind (dispatchWithContext_only hcount hcore) fun _ => trivial
  · rw [Program.only_ite]
    refine ⟨fun _ => trivial, fun hallowed => ?_⟩
    refine Program.only_bind (Program.only_perform.mpr (hcount _)) fun _ => ?_
    refine Program.only_bind (hstream (not_not.mp hserial) (by simpa using hallowed)) fun _ => ?_
    exact ⟨hcount _, fun _ => trivial⟩

/-- A request without the token reaches nothing but the counters. -/
theorem dispatchStreamWithContext_refused (htoken : d.cfg.authToken ≠ "")
    (hserial : serialId ≠ Method.healthCheck.requestSerialId)
    (h : ¬CarriesToken d codec payload serialId) :
    (dispatchStreamWithContext pf d codec payload serialId).Only (·.counts = true) := by
  apply dispatchStreamWithContext_only (fun _ => rfl)
  · have hcore : ∃ response, dispatchCore pf d codec payload serialId = .done response :=
      dispatchCore_refused htoken hserial h
    obtain ⟨response, hdone⟩ := hcore
    rw [hdone]
    trivial
  · intro hstream _
    obtain ⟨responses, hdone⟩ := handleStreamMetrics_refused htoken hstream h
    rw [hdone]
    trivial

/-! ## What the roles exclude -/

theorem withRequest_only {α : Type} {m : Method} {refuse : RpcResponse → α}
    {body : m.Request → Dispatching α} (hbody : ∀ req, (body req).Only P) :
    (d.withRequest codec m payload refuse body).Only P := by
  unfold withRequest
  cases codec.parse m payload with
  | none => trivial
  | some req => exact Program.only_ite.mpr ⟨fun _ => trivial, fun _ => hbody req⟩

theorem withTaskId_only {α : Type} {taskId : String} {refuse : Response → α}
    {body : Dispatching α} (hbody : body.Only P) : (d.withTaskId taskId refuse body).Only P := by
  simp [withTaskId, hbody]

theorem updateIdle_only (hdb : ∀ call, P (.db call)) (stmt : Statement) :
    (updateIdle stmt).Only P := by
  simp [updateIdle, hdb]

theorem cancel_only (hdb : ∀ call, P (.db call)) (hcancel : ∀ taskId, P (.cancelRegistered taskId))
    (taskId failure : String) : (cancel taskId failure).Only P := by
  refine Program.only_bind ?_ fun canceled => ?_
  · simp [Dispatching.cancelTask, hdb]
  · simp [hcancel]

theorem handlerAvailable_only (hhas : ∀ handler, P (.hasHandler handler))
    (hdiscover : ∀ name, P (.discoverServices name)) (handler : String) :
    (d.handlerAvailable handler).Only P := by
  simp [handlerAvailable, hhas, hdiscover]

theorem reachWorker_only (hdiscover : ∀ name, P (.discoverServices name)) (hclock : P .clock)
    (hcall : ∀ endpoints request, P (.callWorker endpoints request))
    (taskId executionId handler params : String) :
    (d.reachWorker taskId executionId handler params).Only P := by
  simp [reachWorker, hdiscover, hclock, hcall]

theorem sampleMetrics_only (hsnapshot : P .snapshot) (samples i rest : Nat) :
    (sampleMetrics codec samples i rest).Only P := by
  induction rest generalizing i with
  | zero => trivial
  | succ rest ih =>
      exact Program.only_bind (Program.only_perform.mpr hsnapshot) fun _ =>
        Program.only_bind (ih (i + 1)) fun _ => trivial

theorem handleStreamMetrics_only (hsnapshot : P .snapshot) :
    (handleStreamMetrics d codec payload).Only P :=
  withRequest_only fun _ => sampleMetrics_only hsnapshot _ _ _

theorem only_map {α β : Type} {p : Dispatching α} (f : α → β) (hp : p.Only P) :
    (f <$> p).Only P :=
  Program.only_bind hp fun _ => trivial

/-! ### The handlers

Requests and their outcomes are counted around the handlers, not by them, and a
task handler is run by `execute` alone.  What the handlers perform is therefore
within any `P` that has the other operations and, unless the node is a control
plane, `execute`. -/

section Handlers

variable (hP : ∀ op, DispatchOp.runsHandler op = false → DispatchOp.countsRpc op = false → P op)

include hP

theorem submitTask_only (req : Rpc.SubmitTaskRequest) : (submitTask pf d req).Only P := by
  refine Program.only_bind (Program.only_perform.mpr (hP _ rfl rfl)) fun id => ?_
  refine Program.only_ite.mpr ⟨fun _ => trivial, fun _ => ?_⟩
  refine Program.only_bind
    (handlerAvailable_only (fun _ => hP _ rfl rfl) (fun _ => hP _ rfl rfl) _) fun available => ?_
  have hclock : P .clock := hP _ rfl rfl
  have hdb : ∀ call, P (.db call) := fun _ => hP _ rfl rfl
  simp [hclock, hdb]

theorem updateTask_only (req : Rpc.UpdateTaskRequest) : (updateTask pf d req).Only P := by
  unfold updateTask
  refine Program.only_ite.mpr ⟨fun _ => trivial, fun _ => ?_⟩
  cases req.task with
  | none => trivial
  | some info =>
      refine Program.only_ite.mpr ⟨fun _ => trivial, fun _ => ?_⟩
      refine Program.only_bind (Program.only_perform.mpr (hP _ rfl rfl)) fun reply => ?_
      cases reply.task with
      | none => trivial
      | some existing =>
          have hupdate : ∀ stmt, (updateIdle stmt).Only P :=
            updateIdle_only fun _ => hP _ rfl rfl
          refine Program.only_ite.mpr ⟨fun _ => trivial, fun _ => ?_⟩
          refine Program.only_ite.mpr ⟨fun _ => trivial, fun _ => ?_⟩
          refine Program.only_ite.mpr ⟨fun _ => trivial, fun _ => ?_⟩
          refine Program.only_bind
            (handlerAvailable_only (fun _ => hP _ rfl rfl) (fun _ => hP _ rfl rfl) _)
            fun available => ?_
          refine Program.only_ite.mpr ⟨fun _ => trivial, fun _ => ?_⟩
          refine Program.only_ite.mpr ⟨fun _ => ?_, fun _ => ?_⟩
          · refine Program.only_bind (Program.only_perform.mpr (hP _ rfl rfl)) fun nowMs => ?_
            refine Program.only_ite.mpr ⟨fun _ => trivial, fun _ => ?_⟩
            exact Program.only_bind (hupdate _) fun _ => trivial
          · exact Program.only_bind (hupdate _) fun _ => trivial

theorem enableTask_only (taskId : String) (enabled : Bool) :
    (enableTask pf taskId enabled).Only P := by
  refine Program.only_bind (Program.only_perform.mpr (hP _ rfl rfl)) fun reply => ?_
  cases reply.task with
  | none => trivial
  | some task =>
      have hcancel := cancel_only (fun _ => hP _ rfl rfl) (fun _ => hP _ rfl rfl)
        taskId "DB update failed"
      refine Program.only_ite.mpr ⟨fun _ => hcancel, fun _ => ?_⟩
      refine Program.only_ite.mpr ⟨fun _ => trivial, fun _ => ?_⟩
      refine Program.only_bind (Program.only_perform.mpr (hP _ rfl rfl)) fun nowMs => ?_
      refine Program.only_ite.mpr ⟨fun _ => trivial, fun _ => ?_⟩
      exact Program.only_bind (updateIdle_only (fun _ => hP _ rfl rfl) _) fun _ => trivial

theorem deleteTask_only (taskId : String) : (deleteTask taskId).Only P := by
  refine Program.only_bind (Program.only_perform.mpr (hP _ rfl rfl)) fun reply => ?_
  cases reply.task with
  | none => trivial
  | some task =>
      have hdb : ∀ call, P (.db call) := fun _ => hP _ rfl rfl
      simp [hdb]

variable (hexecute : d.role = .controlPlane ∨
  ∀ handler context params, P (.execute handler context params))

include hexecute

theorem invokeWorker_only (taskId executionId handler params : String) :
    (d.invokeWorker taskId executionId handler params).Only P := by
  have hreach : (d.reachWorker taskId executionId handler params).Only P := by
    apply reachWorker_only <;> intros <;> exact hP _ rfl rfl
  refine Program.only_bind ?_ fun _ => trivial
  refine Program.only_ite.mpr ⟨fun hcombined => ?_, fun _ => hreach⟩
  refine Program.only_bind (Program.only_perform.mpr (hP _ rfl rfl)) fun known => ?_
  refine Program.only_ite.mpr ⟨fun _ => ?_, fun _ => hreach⟩
  refine Program.only_bind (Program.only_perform.mpr (hP _ rfl rfl)) fun nowMs => ?_
  rcases hexecute with hcontrol | hexecute
  · rw [hcombined] at hcontrol
    cases hcontrol
  · exact ⟨hexecute _ _ _, fun _ => trivial⟩

theorem executeManually_only (m : ManualRun) : (executeManually pf d m).Only P := by
  refine Program.only_bind (Program.only_perform.mpr (hP _ rfl rfl)) fun startMs => ?_
  refine Program.only_bind (Program.only_perform.mpr (hP _ rfl rfl)) fun steadyStart => ?_
  refine Program.only_bind (invokeWorker_only hP hexecute _ _ _ _) fun outcome => ?_
  cases outcome with
  | error what => trivial
  | ok outcome =>
      have hcount : P (.count (if outcome.success then .taskSuccess else .taskFailure)) := by
        split <;> exact hP _ rfl rfl
      have hduration : ∀ ms, P (.count (.taskDuration ms)) := fun _ => hP _ rfl rfl
      have hclock : P .clock ∧ P .steadyClock := ⟨hP _ rfl rfl, hP _ rfl rfl⟩
      have hdb : ∀ call, P (.db call) := fun _ => hP _ rfl rfl
      simp [hcount, hduration, hclock, hdb]

theorem runTaskNow_only (taskId : String) : (runTaskNow pf d taskId).Only P := by
  refine Program.only_bind (Program.only_perform.mpr (hP _ rfl rfl)) fun reply => ?_
  cases reply.task with
  | none => trivial
  | some task =>
      refine Program.only_ite.mpr ⟨fun _ => trivial, fun _ => ?_⟩
      dsimp only
      split
      · refine Program.only_bind
          (handlerAvailable_only (fun _ => hP _ rfl rfl) (fun _ => hP _ rfl rfl) _)
          fun available => ?_
        refine Program.only_ite.mpr ⟨fun _ => trivial, fun _ => ?_⟩
        refine Program.only_bind (Program.only_perform.mpr (hP _ rfl rfl)) fun uuid => ?_
        refine Program.only_bind (Program.only_perform.mpr (hP _ rfl rfl)) fun claimed => ?_
        exact Program.only_ite.mpr
          ⟨fun _ => trivial, fun _ => executeManually_only hP hexecute _⟩
      · trivial

/-- All handlers but `ExecuteTask`, which runs a task handler on whatever node. -/
theorem handle_only
    (hexecuteTask : serialId = Method.executeTask.requestSerialId →
      (handleExecuteTask d codec payload).Only P) :
    (handle pf d codec payload serialId).Only P := by
  unfold handle
  split
  case h_1 => exact only_map _ (withRequest_only fun _ => trivial)
  case h_2 =>
    exact only_map _ (withRequest_only fun req =>
      Program.only_bind (submitTask_only hP req) fun _ => trivial)
  case h_3 hid => exact only_map _ (hexecuteTask (Method.ofSerialId?_eq_some.mp hid).symm)
  case h_4 =>
    refine only_map _ (withRequest_only fun req => Program.only_bind ?_ fun _ => trivial)
    exact withTaskId_only (cancel_only (fun _ => hP _ rfl rfl) (fun _ => hP _ rfl rfl) _ _)
  case h_5 =>
    refine only_map _ (withRequest_only fun req => ?_)
    have hop : ∀ query, P (.listTasks query) := fun _ => hP _ rfl rfl
    simp [hop]
  case h_6 =>
    refine only_map _ (withRequest_only fun req => ?_)
    have hop : ∀ query, P (.listHistory query) := fun _ => hP _ rfl rfl
    simp [hop]
  case h_7 =>
    refine only_map _ (withRequest_only fun req => ?_)
    have hop : ∀ name, P (.discoverServices name) := fun _ => hP _ rfl rfl
    simp [hop]
  case h_8 =>
    exact only_map _ (withRequest_only fun req =>
      Program.only_bind (updateTask_only hP req) fun _ => trivial)
  case h_9 =>
    refine only_map _ (withRequest_only fun req => Program.only_bind ?_ fun _ => trivial)
    exact withTaskId_only (enableTask_only hP _ _)
  case h_10 =>
    refine only_map _ (withRequest_only fun req => Program.only_bind ?_ fun _ => trivial)
    exact withTaskId_only (deleteTask_only hP _)
  case h_11 =>
    refine withRequest_only fun req => Program.only_bind ?_ fun _ => trivial
    exact withTaskId_only (runTaskNow_only hP hexecute _)
  case h_12 =>
    refine only_map _ (withRequest_only fun req => ?_)
    have hop : P .snapshot := hP _ rfl rfl
    simp [hop]
  case h_13 =>
    refine only_map _ ?_
    unfold handleHealthCheck
    cases codec.parse .healthCheck payload with
    | none => trivial
    | some req =>
        have hop : P .clock := hP _ rfl rfl
        simp [hop]
  case h_14 => trivial
  case h_15 => trivial

end Handlers

/-- Apart from `ExecuteTask`, no handler of a control plane runs a task
handler. -/
theorem handle_runsNoHandler (hrole : d.role = .controlPlane)
    (hserial : serialId ≠ Method.executeTask.requestSerialId) :
    (handle pf d codec payload serialId).Only (·.runsHandler = false) :=
  handle_only (fun _ hruns _ => hruns) (.inl hrole) fun hid => absurd hid hserial

/-- The handlers count neither requests nor outcomes. -/
theorem dispatchCore_countsNoRpc :
    (dispatchCore pf d codec payload serialId).Only (·.countsRpc = false) := by
  refine Program.only_ite.mpr ⟨fun _ => trivial, fun _ => ?_⟩
  refine handle_only (fun _ _ hcounts => hcounts) (.inr fun _ _ _ => rfl) fun _ => ?_
  refine withRequest_only fun req => ?_
  simp [DispatchOp.countsRpc]

/-- The handlers of the methods open on a worker stay away from MySQL. -/
theorem handle_touchesNoMySQL (hrole : d.role = .worker)
    (hallowed : d.methodAllowed serialId = true) :
    (handle pf d codec payload serialId).Only (·.touchesMySQL = false) := by
  have hopen : ∀ m, Method.ofSerialId? serialId = some m →
      m ∈ [Method.echo, .executeTask, .getMetrics, .healthCheck, .streamMetrics] := by
    intro m hid
    simp only [methodAllowed, hrole, List.any_eq_true, beq_iff_eq] at hallowed
    obtain ⟨m', hmem, hm'⟩ := hallowed
    have hm := Method.ofSerialId?_eq_some.mp hid
    rwa [Method.requestSerialId_injective (hm.trans hm'.symm)]
  unfold handle
  split
  case h_1 => exact only_map _ (withRequest_only fun _ => trivial)
  case h_3 =>
    refine only_map _ (withRequest_only fun req => ?_)
    simp [DispatchOp.touchesMySQL]
  case h_12 =>
    refine only_map _ (withRequest_only fun req => ?_)
    simp [DispatchOp.touchesMySQL]
  case h_13 =>
    refine only_map _ ?_
    unfold handleHealthCheck
    cases codec.parse .healthCheck payload with
    | none => trivial
    | some req => simp [DispatchOp.touchesMySQL]
  case h_14 => trivial
  case h_15 => trivial
  all_goals
    rename_i hid
    exact absurd (hopen _ hid) (by decide)

theorem dispatchStreamWithContext_runsNoHandler (hrole : d.role = .controlPlane) :
    (dispatchStreamWithContext pf d codec payload serialId).Only (·.runsHandler = false) := by
  apply dispatchStreamWithContext_only (fun _ => rfl)
  · unfold dispatchCore
    refine Program.only_ite.mpr ⟨fun _ => trivial, fun hallowed => ?_⟩
    apply handle_runsNoHandler hrole
    simpa [methodAllowed, hrole] using hallowed
  · intro _ _
    apply handleStreamMetrics_only
    rfl

theorem dispatchStreamWithContext_touchesNoMySQL (hrole : d.role = .worker) :
    (dispatchStreamWithContext pf d codec payload serialId).Only (·.touchesMySQL = false) := by
  apply dispatchStreamWithContext_only (fun _ => rfl)
  · unfold dispatchCore
    refine Program.only_ite.mpr ⟨fun _ => trivial, fun hallowed => ?_⟩
    exact handle_touchesNoMySQL hrole (by simpa using hallowed)
  · intro _ _
    apply handleStreamMetrics_only
    rfl

end RpcDispatcher

/-! ## The guarantee -/

/-- A dispatcher with a token answers a request without it from the request
alone, and only its counters notice.  Whether a request has the token is
equality of byte strings; `HealthCheck` needs none.  Whatever the request, a
control plane runs no task handler in its process and a worker does not touch
MySQL. -/
theorem request_without_token (pf : Platform) (d : RpcDispatcher) (codec : Codec)
    (payload : List UInt8) (serialId : UInt32) :
    (d.cfg.authToken ≠ "" →
      (∀ token, d.authorized token = true ↔
        stringBytes d.cfg.authToken = stringBytes token) ∧
      (serialId ≠ Method.healthCheck.requestSerialId → ¬CarriesToken d codec payload serialId →
        (∀ (σ : Type) (world : Program.World DispatchOp.Reply σ) (s : σ),
          ∀ step ∈ (dispatchStreamWithContext pf d codec payload serialId).trace world s,
            ∃ event, step.1 = .count event) ∧
        ∀ (σ σ' : Type) (world : Program.World DispatchOp.Reply σ)
          (world' : Program.World DispatchOp.Reply σ') (s : σ) (s' : σ'),
          ((dispatchStreamWithContext pf d codec payload serialId).run world s).1 =
            ((dispatchStreamWithContext pf d codec payload serialId).run world' s').1)) ∧
    (d.role = .controlPlane → ∀ (σ : Type) (world : Program.World DispatchOp.Reply σ) (s : σ),
      ∀ step ∈ (dispatchStreamWithContext pf d codec payload serialId).trace world s,
        step.1.runsHandler = false) ∧
    (d.role = .worker → ∀ (σ : Type) (world : Program.World DispatchOp.Reply σ) (s : σ),
      ∀ step ∈ (dispatchStreamWithContext pf d codec payload serialId).trace world s,
        step.1.touchesMySQL = false) := by
  refine ⟨fun htoken => ⟨authorized_iff d htoken, fun hserial h => ?_⟩, ?_, ?_⟩
  · have hcounts : (dispatchStreamWithContext pf d codec payload serialId).Only
        (·.counts = true) := dispatchStreamWithContext_refused htoken hserial h
    constructor
    · intro σ world s step hstep
      exact DispatchOp.exists_of_counts (hcounts.trace world s step hstep)
    · intro σ σ' world world' s s'
      exact hcounts.result_eq (fun _ => DispatchOp.subsingleton_of_counts) world world' s s'
  · intro hrole σ world s
    exact (dispatchStreamWithContext_runsNoHandler hrole).trace world s
  · intro hrole σ world s
    exact (dispatchStreamWithContext_touchesNoMySQL hrole).trace world s

/-- A node with a token. -/
def guardedDispatcher (role : RpcNodeRole) : RpcDispatcher where
  cfg := { nodeId := "node-1", authToken := "secret" }
  role := role

/-- Every payload is a `CancelTask` with an empty token. -/
def tokenlessCodec : Codec where
  parse
    | .cancelTask, _ => some (⟨"task-1", ""⟩ : Rpc.TaskIdRequest)
    | _, _ => none
  serialize := fun _ => []

theorem tokenless_not_carriesToken (role : RpcNodeRole) :
    ¬CarriesToken (guardedDispatcher role) tokenlessCodec []
      Method.cancelTask.requestSerialId := by
  rintro ⟨m, req, hid, hparse, htoken⟩
  obtain rfl : Method.cancelTask = m :=
    Option.some.inj ((Method.ofSerialId?_eq_some.mpr rfl).symm.trans hid)
  obtain rfl : (⟨"task-1", ""⟩ : Rpc.TaskIdRequest) = req := Option.some.inj hparse
  have hempty : "" = "secret" := htoken
  exact absurd hempty (by decide)

/-- A `CancelTask` without the token, on a control plane and on a worker. -/
theorem cancel_without_token :
    (∀ (σ σ' : Type) (world : Program.World DispatchOp.Reply σ)
      (world' : Program.World DispatchOp.Reply σ') (s : σ) (s' : σ'),
      ((dispatchStreamWithContext utcPlatform (guardedDispatcher .controlPlane) tokenlessCodec []
        7).run world s).1 =
      ((dispatchStreamWithContext utcPlatform (guardedDispatcher .controlPlane) tokenlessCodec []
        7).run world' s').1) ∧
    (∀ (σ : Type) (world : Program.World DispatchOp.Reply σ) (s : σ),
      ∀ step ∈ (dispatchStreamWithContext utcPlatform (guardedDispatcher .controlPlane)
        tokenlessCodec [] 7).trace world s, step.1.runsHandler = false) ∧
    ∀ (σ : Type) (world : Program.World DispatchOp.Reply σ) (s : σ),
      ∀ step ∈ (dispatchStreamWithContext utcPlatform (guardedDispatcher .worker)
        tokenlessCodec [] 7).trace world s, step.1.touchesMySQL = false := by
  have hcontrol := request_without_token utcPlatform (guardedDispatcher .controlPlane)
    tokenlessCodec [] 7
  have hworker := request_without_token utcPlatform (guardedDispatcher .worker)
    tokenlessCodec [] 7
  refine ⟨?_, hcontrol.2.1 rfl, hworker.2.2 rfl⟩
  exact ((hcontrol.1 (by decide)).2 (by decide) (tokenless_not_carriesToken _)).2

end Corpcron
