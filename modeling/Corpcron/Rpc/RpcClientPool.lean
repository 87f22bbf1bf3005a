import Corpcron.Lib.CString
import Corpcron.Lib.Threads
import Corpcron.Lib.Trace
import Corpcron.Rpc.RpcClient
import Mathlib.Logic.Function.Basic

/-!
# `RpcClientPool`

Any number of calls share one pool.  Each helper that takes the mutex of an
endpoint (`isHealthyEnough`, `reserveHalfOpenProbe`, `borrow`, `release`,
`recordSuccess`, `recordFailure`) is one step; between two of them other calls
go on.  A call that waits for a response is at `probing` or `calling`.  An
endpoint that is not in `states_` behaves like a fresh `EndpointState`, so the
map is a function.

`consecutive_failures` is an `int`.  Counting past its range is undefined, and
`recordFailure` has no result then.
-/

namespace Corpcron
namespace RpcClientPool

open Lib

/-! ## Options -/

/-- `RpcClientPool::Options`. -/
structure Options where
  maxIdlePerEndpoint : Nat := 4
  failureThreshold : Int := 2
  cooldownMs : Int := 3000
  healthCheckProbe : Bool := true
  healthCheckTimeoutMs : Int := 500

/-- The options as the constructor leaves them. -/
def Options.normalized (options : Options) : Options :=
  { options with
    maxIdlePerEndpoint := if options.maxIdlePerEndpoint = 0 then 1 else options.maxIdlePerEndpoint
    failureThreshold := if options.failureThreshold ≤ 0 then 1 else options.failureThreshold
    cooldownMs := if options.cooldownMs < 0 then 0 else options.cooldownMs
    healthCheckTimeoutMs :=
      if options.healthCheckTimeoutMs ≤ 0 then 500 else options.healthCheckTimeoutMs }

/-! ## Endpoints -/

/-- `EndpointAddress`. -/
structure EndpointAddress where
  host : String
  port : Nat

/-- `parseEndpoint`. -/
def parseEndpoint (endpoint : String) : Option EndpointAddress :=
  let chars := endpoint.toList
  let portText := (chars.reverse.takeWhile (· != ':')).reverse
  let host := chars.take (chars.length - portText.length - 1)
  if ':' ∉ chars ∨ host = [] ∨ portText = [] then none
  else
    match strtol? (portText.takeWhile (· != '\x00')) with
    | none => none
    | some port => if port ≤ 0 ∨ port > 65535 then none else some ⟨String.ofList host, port.toNat⟩

/-- `CircuitState`. -/
inductive CircuitState where
  | closed
  | open
  | halfOpen
deriving DecidableEq

/-- `EndpointState`; of the idle clients only the number is kept. -/
structure EndpointState where
  idleClients : Nat := 0
  consecutiveFailures : Nat := 0
  unhealthyUntil : Nat := 0
  circuitState : CircuitState := .closed
  halfOpenProbeInFlight : Bool := false
deriving DecidableEq

namespace EndpointState

/-- `isHealthyEnough`. -/
def isHealthyEnough (state : EndpointState) (now : Nat) : Bool :=
  match state.circuitState with
  | .closed => true
  | .open => now ≥ state.unhealthyUntil && !state.halfOpenProbeInFlight
  | .halfOpen => false

/-- `reserveHalfOpenProbe`; `none` if it returns false. -/
def reserveHalfOpenProbe (state : EndpointState) (now : Nat) : Option EndpointState :=
  if state.circuitState ≠ .open ∨ now < state.unhealthyUntil ∨
      state.halfOpenProbeInFlight = true then none
  else some { state with circuitState := .halfOpen, halfOpenProbeInFlight := true }

/-- `recordSuccess`. -/
def recordSuccess (state : EndpointState) : EndpointState :=
  { state with
    consecutiveFailures := 0
    unhealthyUntil := 0
    circuitState := .closed
    halfOpenProbeInFlight := false }

/-- `recordFailure` at time `now`. -/
def recordFailure (options : Options) (now : Nat) (state : EndpointState) :
    Option EndpointState :=
  let failures := state.consecutiveFailures + 1
  if failures ≥ 2 ^ 31 then none
  else if (failures : Int) ≥ options.failureThreshold then
    some { state with
      consecutiveFailures := failures
      unhealthyUntil := now + options.cooldownMs.toNat
      circuitState := .open
      halfOpenProbeInFlight := false }
  else some { state with consecutiveFailures := failures }

/-- `recordSuccess` or `recordFailure`. -/
def record (options : Options) (now : Nat) (success : Bool) (state : EndpointState) :
    Option EndpointState :=
  if success then some state.recordSuccess else state.recordFailure options now

/-- `borrow`: an idle client is taken if there is one. -/
def borrow (state : EndpointState) : EndpointState :=
  { state with idleClients := state.idleClients - 1 }

/-- `release`. -/
def release (options : Options) (reusable : Bool) (state : EndpointState) : EndpointState :=
  if reusable ∧ state.idleClients < options.maxIdlePerEndpoint then
    { state with idleClients := state.idleClients + 1 }
  else state

end EndpointState

/-! ## Calls -/

/-- The result of `call`. -/
structure CallResult where
  ok : Bool
  selectedEndpoint : String := ""
  error : String := ""
deriving DecidableEq

/-- How `RpcClient::call` ends. -/
structure ClientResult where
  ok : Bool
  error : String := ""
  status : RpcCallStatus := .ok
deriving DecidableEq

/-- The variables of the candidate loop: the candidates after the current one
and `last_error`. -/
structure Loop where
  candidates : List String
  lastError : String := ""
deriving DecidableEq

/-- Program counter of a `call`. -/
inductive CallPc where
  /-- In the loop of `orderedCandidates`. -/
  | ordering (now : Nat) (pending ordered : List String)
  /-- Before the next candidate. -/
  | iterating (l : Loop)
  /-- Before `recordFailure` for an endpoint that cannot be parsed. -/
  | failing (endpoint : String) (l : Loop)
  /-- Before `reserveHalfOpenProbe`. -/
  | reserving (endpoint : String) (now : Nat) (l : Loop)
  /-- In `healthCheckEndpoint`. -/
  | probing (endpoint : String) (l : Loop)
  /-- Before `finishHalfOpenProbe`. -/
  | finishing (endpoint : String) (success : Bool) (l : Loop)
  /-- Before the `isHealthyEnough` of the loop. -/
  | gating (endpoint : String) (now : Nat) (l : Loop)
  | borrowing (endpoint : String) (l : Loop)
  /-- In `RpcClient::call`. -/
  | calling (endpoint : String) (l : Loop)
  | releasing (endpoint : String) (result : ClientResult) (l : Loop)
  /-- Before the `recordSuccess` or `recordFailure` after the call. -/
  | recording (endpoint : String) (result : ClientResult) (l : Loop)
  | returned (result : CallResult)
deriving DecidableEq

/-- What a step of a call meets outside. -/
structure Input where
  cancellationRequested : Bool := false
  deadlineExceeded : Bool := false
  /-- Whether the endpoint answers the `HealthCheck` and is serving. -/
  serving : Bool := true
  client : ClientResult := ⟨true, "", .ok⟩

/-- The pool and the calls in it. -/
structure State where
  /-- `steady_clock`, in milliseconds. -/
  now : Nat := 0
  roundRobin : Nat := 0
  endpoints : String → EndpointState := fun _ => {}
  calls : List CallPc := []

/-- `endpoints` without empty texts and repetitions. -/
def uniqueEndpoints (endpoints : List String) : List String :=
  endpoints.foldl
    (fun unique endpoint =>
      if endpoint = "" ∨ endpoint ∈ unique then unique else unique ++ [endpoint]) []

/-- `call` up to the first `isHealthyEnough` of `orderedCandidates`, with the
new value of `round_robin_`. -/
def beginCall (s : State) (endpoints : List String) : Nat × CallPc :=
  let unique := uniqueEndpoints endpoints
  if unique.isEmpty then
    (s.roundRobin, .returned
      { ok := false
        error := if endpoints.isEmpty then "no endpoint available"
          else "all endpoints are unavailable (circuit open)" })
  else
    let start := s.roundRobin % unique.length
    ((s.roundRobin + 1) % 2 ^ 64, .ordering s.now (unique.drop start ++ unique.take start) [])

/-- One step of a call: what it makes of the endpoints, and where it goes on. -/
def stepCall (options : Options) (s : State) (inp : Input) :
    CallPc → Option ((String → EndpointState) × CallPc)
  | .ordering now (endpoint :: pending) ordered =>
      if (s.endpoints endpoint).isHealthyEnough now then
        some (s.endpoints, .ordering now pending (ordered ++ [endpoint]))
      else some (s.endpoints, .ordering now pending ordered)
  | .ordering _ [] ordered =>
      if ordered.isEmpty then
        some (s.endpoints, .returned
          { ok := false, error := "all endpoints are unavailable (circuit open)" })
      else some (s.endpoints, .iterating { candidates := ordered })
  | .iterating ⟨[], lastError⟩ =>
      some (s.endpoints, .returned
        { ok := false, error := if lastError = "" then "all endpoints failed" else lastError })
  | .iterating ⟨endpoint :: rest, lastError⟩ =>
      if inp.cancellationRequested then
        some (s.endpoints, .returned { ok := false, error := "rpc call canceled" })
      else if inp.deadlineExceeded then
        some (s.endpoints, .returned { ok := false, error := "rpc deadline exceeded" })
      else if (parseEndpoint endpoint).isNone then
        some (s.endpoints, .failing endpoint ⟨rest, "invalid endpoint: " ++ endpoint⟩)
      else some (s.endpoints, .reserving endpoint s.now ⟨rest, lastError⟩)
  | .failing endpoint l =>
      ((s.endpoints endpoint).recordFailure options s.now).map fun state =>
        (Function.update s.endpoints endpoint state, .iterating l)
  | .reserving endpoint now l =>
      match (s.endpoints endpoint).reserveHalfOpenProbe now with
      | some state => some (Function.update s.endpoints endpoint state, .probing endpoint l)
      | none => some (s.endpoints, .gating endpoint now l)
  | .probing endpoint l =>
      some (s.endpoints, .finishing endpoint (!options.healthCheckProbe || inp.serving) l)
  | .finishing endpoint success l =>
      ((s.endpoints endpoint).record options s.now success).map fun state =>
        (Function.update s.endpoints endpoint state,
          if success then .borrowing endpoint l
          else .iterating { l with lastError := "health check failed: " ++ endpoint })
  | .gating endpoint now l =>
      if (s.endpoints endpoint).isHealthyEnough now then some (s.endpoints, .borrowing endpoint l)
      else some (s.endpoints, .iterating { l with lastError := "endpoint circuit is open: " ++ endpoint })
  | .borrowing endpoint l =>
      some (Function.update s.endpoints endpoint (s.endpoints endpoint).borrow, .calling endpoint l)
  | .calling endpoint l => some (s.endpoints, .releasing endpoint inp.client l)
  | .releasing endpoint result l =>
      some (Function.update s.endpoints endpoint ((s.endpoints endpoint).release options result.ok),
        .recording endpoint result l)
  | .recording endpoint result l =>
      ((s.endpoints endpoint).record options s.now result.ok).map fun state =>
        (Function.update s.endpoints endpoint state,
          if result.ok then .returned { ok := true, selectedEndpoint := endpoint }
          else
            let lastError :=
              if result.error = "" then "rpc call failed: " ++ endpoint else result.error
            if result.status = .canceled ∨ result.status = .deadlineExceeded then
              .returned { ok := false, error := lastError }
            else .iterating { l with lastError := lastError })
  | .returned _ => none

/-- What can happen to a pool. -/
inductive Action where
  /-- Time passes. -/
  | tick (ms : Nat)
  /-- `call` is entered. -/
  | call (endpoints : List String)
  /-- Call number `i` makes a step. -/
  | advance (i : Nat) (inp : Input)

/-- The pool as a system of calls. -/
def step (options : Options) (s : State) : Action → Option State
  | .tick ms => some { s with now := s.now + ms }
  | .call endpoints =>
      some { s with
        roundRobin := (beginCall s endpoints).1
        calls := s.calls ++ [(beginCall s endpoints).2] }
  | .advance i inp =>
      match s.calls[i]? with
      | none => none
      | some pc =>
          (stepCall options s inp pc).map fun next =>
            { s with endpoints := next.1, calls := s.calls.set i next.2 }

/-- A transition of a pool. -/
abbrev PoolTransition := Lib.Transition State Action

end RpcClientPool
end Corpcron
