import Corpcron.Rpc.CircuitBreaker
import Corpcron.Rpc.ConnectionReuse

/-!
# Failures that are the caller's own

An exchange can fail for reasons that say nothing about the endpoint: the caller
cancels it, or its request is too large to be sent.  The candidate loop looks at
the status of the exchange only to decide whether to go on.  Before that it has
called `recordFailure`, which counts every exchange that is not `ok`.

`exchange_spares_endpoint_iff` follows a call from the exchange to the record.
-/

namespace Corpcron
namespace RpcClientPool

open Lib

/-- What the candidate loop keeps of a call of the borrowed client: the result,
`lastError()` and `lastStatus()`. -/
def ClientResult.ofCall (result : Corpcron.CallResult) : ClientResult :=
  ⟨result.ok, result.client.lastError, result.client.lastStatus⟩

/-- A call that returns true leaves the status `OK`. -/
theorem lastStatus_of_ok (client : RpcClient) (serialId : UInt32) (requestData : List UInt8)
    (inp : CallInput) (h : (client.call serialId requestData inp).ok = true) :
    (client.call serialId requestData inp).client.lastStatus = .ok := by
  unfold RpcClient.call at *
  split at h
  · cases h
  · split at h
    · cases h
    · rfl

/-- The fields of an endpoint that judge its health. -/
structure Health where
  consecutiveFailures : Nat
  circuitState : CircuitState
  unhealthyUntil : Nat
deriving DecidableEq

def EndpointState.health (state : EndpointState) : Health :=
  ⟨state.consecutiveFailures, state.circuitState, state.unhealthyUntil⟩

/-- No failure is on record. -/
def Health.spotless : Health := ⟨0, .closed, 0⟩

/-! ## Records -/

section Records

variable {options : Options} {now : Nat} {state state' : EndpointState}

theorem recordSuccess_health (state : EndpointState) :
    state.recordSuccess.health = Health.spotless := rfl

/-- What a failure does, whatever it was. -/
theorem recordFailure_spec (h : state.recordFailure options now = some state') :
    state'.consecutiveFailures = state.consecutiveFailures + 1 ∧
      (options.failureThreshold ≤ (state.consecutiveFailures + 1 : Nat) →
        state'.circuitState = .open) := by
  unfold EndpointState.recordFailure at h
  dsimp only at h
  split at h
  · cases h
  · split at h
    · cases h
      exact ⟨rfl, fun _ => rfl⟩
    · rename_i hbelow
      cases h
      exact ⟨rfl, fun hreached => absurd hreached hbelow⟩

/-- A record leaves the health of an endpoint as it was only if there was
nothing to record. -/
theorem health_of_record_iff {success : Bool}
    (h : state.record options now success = some state') :
    state'.health = state.health ↔ success = true ∧ state.health = Health.spotless := by
  cases success with
  | true =>
      cases h
      rw [recordSuccess_health, eq_comm]
      simp
  | false =>
      have hcount := (recordFailure_spec h).1
      constructor
      · intro hsame
        have hfailures := congrArg Health.consecutiveFailures hsame
        simp only [EndpointState.health] at hfailures
        omega
      · rintro ⟨hsuccess, -⟩
        cases hsuccess

end Records

/-! ## From the exchange to the record -/

/-- What call `i` makes of its endpoint when nobody else moves between its
exchange and its record. -/
theorem record_of_exchange {options : Options} {s s' : State} {i : Nat} {e : String} {l : Loop}
    {exchange release record : Input} (hpc : s.calls[i]? = some (.calling e l))
    (hexec : execute (step options) s
      [.advance i exchange, .advance i release, .advance i record] = some s') :
    ∃ idle, EndpointState.record options s.now exchange.client.ok
      { s.endpoints e with idleClients := idle } = some (s'.endpoints e) := by
  -- The three steps, each at the place where the one before has left the call.
  have hexchange : step options s (.advance i exchange) =
      some { s with calls := s.calls.set i (.releasing e exchange.client l) } := by
    simp [step, hpc, stepCall]
  simp only [execute, hexchange] at hexec
  have hreleasing : (s.calls.set i (.releasing e exchange.client l))[i]? =
      some (.releasing e exchange.client l) := thread_set_self hpc
  have hrelease : step options
      { s with calls := s.calls.set i (.releasing e exchange.client l) } (.advance i release) =
      some { s with
        endpoints := Function.update s.endpoints e
          ((s.endpoints e).release options exchange.client.ok)
        calls := (s.calls.set i (.releasing e exchange.client l)).set i
          (.recording e exchange.client l) } := by
    simp [step, hreleasing, stepCall]
  simp only [hrelease] at hexec
  have hrecording : ((s.calls.set i (.releasing e exchange.client l)).set i
      (.recording e exchange.client l))[i]? = some (.recording e exchange.client l) :=
    thread_set_self hreleasing
  simp only [step, hrecording, stepCall, Function.update_self] at hexec
  cases hrecord : EndpointState.record options s.now exchange.client.ok
      ((s.endpoints e).release options exchange.client.ok) with
  | none => simp [hrecord] at hexec
  | some state =>
      simp only [hrecord, Option.map_some, Option.some.injEq] at hexec
      subst hexec
      simp only [Function.update_self]
      rw [← hrecord]
      unfold EndpointState.release
      split
      · exact ⟨_, rfl⟩
      · exact ⟨(s.endpoints e).idleClients, rfl⟩

/-- **A failed exchange counts, whoever is to blame.**  In any state of a pool,
an exchange with an endpoint and its record leave the failures, the circuit and
the cooldown of the endpoint alone exactly if the exchange has succeeded and
there was nothing on record.  So an exchange that ends `Canceled` or
`PayloadTooLarge` never does: it counts as a failure and, at the threshold, opens
the circuit. -/
theorem exchange_spares_endpoint_iff (options : Options) (s s' : State) (i : Nat) (e : String)
    (l : Loop) (client : RpcClient) (serialId : UInt32) (requestData : List UInt8)
    (net : CallInput) (exchange release record : Input)
    (hclient : exchange.client = .ofCall (client.call serialId requestData net))
    (hpc : s.calls[i]? = some (.calling e l))
    (hexec : execute (step options) s
      [.advance i exchange, .advance i release, .advance i record] = some s') :
    ((s'.endpoints e).health = (s.endpoints e).health ↔
      (client.call serialId requestData net).ok = true ∧
        (s.endpoints e).health = Health.spotless) ∧
    ((client.call serialId requestData net).client.lastStatus ∈
        [RpcCallStatus.canceled, .payloadTooLarge] →
      (client.call serialId requestData net).ok = false ∧
      (s'.endpoints e).consecutiveFailures = (s.endpoints e).consecutiveFailures + 1 ∧
      (options.failureThreshold ≤ ((s.endpoints e).consecutiveFailures + 1 : Nat) →
        (s'.endpoints e).circuitState = .open)) := by
  obtain ⟨idle, hrecord⟩ := record_of_exchange hpc hexec
  have hok : exchange.client.ok = (client.call serialId requestData net).ok := by
    rw [hclient]
    rfl
  rw [hok] at hrecord
  -- The number of idle clients is no part of the health.
  have hhealth := health_of_record_iff hrecord
  refine ⟨hhealth, fun hstatus => ?_⟩
  have hfailed : (client.call serialId requestData net).ok = false := by
    cases hresult : (client.call serialId requestData net).ok with
    | false => rfl
    | true =>
        rw [lastStatus_of_ok _ _ _ _ hresult] at hstatus
        exact absurd hstatus (by decide)
  rw [hfailed] at hrecord
  have hcounted := recordFailure_spec hrecord
  exact ⟨hfailed, hcounted⟩

/-- A cancellation that is noticed between two exchanges touches no endpoint. -/
theorem canceled_between_exchanges {options : Options} {s s' : State} {i : Nat} {l : Loop}
    {inp : Input} (hpc : s.calls[i]? = some (.iterating l)) (hleft : l.candidates ≠ [])
    (hcanceled : inp.cancellationRequested = true)
    (hstep : step options s (.advance i inp) = some s') :
    s'.endpoints = s.endpoints ∧
      s'.calls[i]? = some (.returned { ok := false, error := "rpc call canceled" }) := by
  obtain ⟨candidates, lastError⟩ := l
  cases candidates with
  | nil => exact absurd rfl hleft
  | cons e rest =>
      simp only [step, hpc, stepCall, hcanceled, if_true, Option.map_some,
        Option.some.injEq] at hstep
      subst hstep
      exact ⟨rfl, thread_set_self hpc⟩

/-! ## Two such calls -/

/-- The caller cancels while its request is being sent. -/
def canceledCall : Corpcron.CallResult :=
  RpcClient.call {} 0 [] { sends := [.failed .canceled] }

/-- The request does not fit into a frame. -/
def oversizedCall : Corpcron.CallResult :=
  RpcClient.call {} 0 (List.replicate (maxPayloadSize + 1) 0) {}

theorem ofCall_canceledCall :
    ClientResult.ofCall canceledCall = ⟨false, "canceled", .canceled⟩ := by
  decide

theorem call_of_oversized {serialId : UInt32} {requestData : List UInt8}
    (h : tryEncode serialId requestData = none) :
    RpcClient.call {} serialId requestData {} =
      ⟨.failed (.payloadTooLarge, "request payload too large"), false, 0, []⟩ := by
  simp only [RpcClient.call, RpcClient.sendRequest, RpcClient.ensureConnected, h]

theorem ofCall_oversizedCall :
    ClientResult.ofCall oversizedCall =
      ⟨false, "request payload too large", .payloadTooLarge⟩ := by
  have hencode : tryEncode 0 (List.replicate (maxPayloadSize + 1) 0) = none := by
    rw [tryEncode_eq_none_iff, List.length_replicate]
    exact Nat.lt_succ_self _
  rw [oversizedCall, call_of_oversized hencode]
  rfl

/-- A call to `h:1` up to the record of its exchange. -/
def exchangeOf (i : Nat) (result : ClientResult) : List Action :=
  [.call ["h:1"]] ++ advances i 6 ++ [.advance i { client := result }] ++ advances i 2

/-- Two calls whose exchange ends with `result`, and a third call. -/
def callerFailureRun (result : ClientResult) : List Action :=
  exchangeOf 0 result ++ exchangeOf 1 result ++ [.call ["h:1"]] ++ advances 2 2

/-- The spotless endpoint of the first call's exchange has a failure on record
after it. -/
theorem exchange_spares_endpoint_iff_canceled :
    ∃ s s', s.calls[0]? = some (.calling "h:1" ⟨[], ""⟩) ∧
      execute (step ({} : Options).normalized) s
        [.advance 0 { client := .ofCall canceledCall }, .advance 0 {}, .advance 0 {}] = some s' ∧
      (s.endpoints "h:1").health = Health.spotless ∧
      ¬ (s'.endpoints "h:1").health = (s.endpoints "h:1").health := by
  obtain ⟨s, -, hs⟩ := exists_run_of_execute
    (show (execute (step ({} : Options).normalized) (built 0)
      ([.call ["h:1"]] ++ advances 0 6)).any (fun s =>
        decide (s.calls[0]? = some (.calling "h:1" ⟨[], ""⟩)) &&
        decide ((s.endpoints "h:1").health = Health.spotless) &&
        (execute (step ({} : Options).normalized) s
          [.advance 0 { client := .ofCall canceledCall }, .advance 0 {}, .advance 0 {}]).isSome) =
        true by decide +kernel)
  simp only [Bool.and_eq_true, decide_eq_true_eq] at hs
  obtain ⟨⟨hpc, hspotless⟩, hsome⟩ := hs
  obtain ⟨s', hexec⟩ := Option.isSome_iff_exists.mp hsome
  obtain ⟨hiff, -⟩ := exchange_spares_endpoint_iff ({} : Options).normalized s s' 0 "h:1" ⟨[], ""⟩
    {} 0 [] { sends := [.failed .canceled] } { client := .ofCall canceledCall } {} {} rfl hpc hexec
  refine ⟨s, s', hpc, hexec, hspotless, fun hsame => ?_⟩
  exact absurd (hiff.mp hsame).1 (by decide)

/-- After the calls of `callerFailureRun` the circuit of the only endpoint is open
and the last call has found no endpoint. -/
def OpensCircuit (result : ClientResult) : Prop :=
  ∃ s, Run (step ({} : Options).normalized) (built 0)
      (executeTrace (step ({} : Options).normalized) (built 0) (callerFailureRun result)) s ∧
    (s.endpoints "h:1").circuitState = .open ∧
    s.calls[2]? = some (.returned
      { ok := false, error := "all endpoints are unavailable (circuit open)" })

theorem opensCircuit_of_execute {result : ClientResult}
    (h : (execute (step ({} : Options).normalized) (built 0) (callerFailureRun result)).any
      (fun s => decide ((s.endpoints "h:1").circuitState = .open) &&
        decide (s.calls[2]? = some (.returned
          { ok := false, error := "all endpoints are unavailable (circuit open)" }))) = true) :
    OpensCircuit result := by
  obtain ⟨s, hrun, hs⟩ := exists_run_of_execute h
  simp only [Bool.and_eq_true, decide_eq_true_eq] at hs
  exact ⟨s, hrun, hs⟩

/-- With the default options two canceled calls, or two oversized ones, open the
circuit of an endpoint that has done nothing wrong, and the next call finds no
endpoint. -/
theorem caller_failures_open_circuit :
    (ClientResult.ofCall canceledCall).status = .canceled ∧
    OpensCircuit (.ofCall canceledCall) ∧
    (ClientResult.ofCall oversizedCall).status = .payloadTooLarge ∧
    OpensCircuit (.ofCall oversizedCall) := by
  rw [ofCall_canceledCall, ofCall_oversizedCall]
  refine ⟨rfl, opensCircuit_of_execute ?_, rfl, opensCircuit_of_execute ?_⟩
  · decide +kernel
  · decide +kernel

end RpcClientPool
end Corpcron
