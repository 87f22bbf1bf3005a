import Corpcron.Rpc.RpcClientPool

/-!
# The circuit of an endpoint

`EndpointStep` says what a step of a call can do to one endpoint: nothing but
move idle clients, reserve a probe, finish a probe, or record the outcome of an
ordinary call.  Every invariant is a case analysis over it.

The first result is that a circuit is never stuck: a half-open endpoint has a
call that is going to finish its probe.  It rests on a fact no line of the
source states: the failure counter is at the threshold whenever the circuit is
not closed, so every record leaves the half-open state.
-/

namespace Corpcron
namespace RpcClientPool

open Lib

/-! ## Steps of a call, seen from one endpoint -/

/-- The call has reserved a probe of the endpoint and not yet finished it. -/
def CallPc.reserved (endpoint : String) : CallPc → Bool
  | .probing e _ | .finishing e _ _ => e == endpoint
  | _ => false

/-- The outcome an ordinary call is about to record, for the endpoint called. -/
def CallPc.records? : CallPc → Option (String × Bool)
  | .failing e _ => some (e, false)
  | .recording e result _ => some (e, result.ok)
  | _ => none

/-- What a step of a call at time `clock` does to the endpoint `e`. -/
inductive EndpointStep (options : Options) (clock : Nat) (e : String) (state : EndpointState)
    (pc : CallPc) (state' : EndpointState) (pc' : CallPc) : Prop where
  | quiet (idle : Nat) (hstate : state' = { state with idleClients := idle })
      (hreserved : pc'.reserved e = pc.reserved e)
  | reserve (now : Nat) (l : Loop) (hpc : pc = .reserving e now l) (hpc' : pc' = .probing e l)
      (hstate : state.reserveHalfOpenProbe now = some state')
  | finish (success : Bool) (l : Loop) (hpc : pc = .finishing e success l)
      (hpc' : pc'.reserved e = false) (hstate : state.record options clock success = some state')
  | record (success : Bool) (hpc : pc.records? = some (e, success))
      (hpc' : pc'.reserved e = false) (hstate : state.record options clock success = some state')

variable {options : Options} {s s' : State} {a : Action} {inp : Input} {pc pc' : CallPc}
  {e : String} {i now clock : Nat} {success : Bool} {state state' : EndpointState}

theorem EndpointStep.same (hreserved : pc'.reserved e = pc.reserved e) :
    EndpointStep options clock e state pc state pc' :=
  .quiet _ rfl hreserved

/-- A step that works on one endpoint leaves the others alone. -/
theorem EndpointStep.of_update {endpoint : String}
    (hother : ∀ e, e ≠ endpoint → pc'.reserved e = pc.reserved e)
    (hself : EndpointStep options s.now endpoint (s.endpoints endpoint) pc state pc') (e : String) :
    EndpointStep options s.now e (s.endpoints e) pc (Function.update s.endpoints endpoint state e)
      pc' := by
  by_cases he : e = endpoint
  · rw [he, Function.update_self]
    exact hself
  · rw [Function.update_of_ne he]
    exact .same (hother e he)

theorem reserved_finished {endpoint : String} {l l' : Loop} :
    (if success then CallPc.borrowing endpoint l else CallPc.iterating l').reserved e = false := by
  cases success <;> rfl

theorem reserved_recorded {p q : Prop} [Decidable p] [Decidable q] {result result' : CallResult}
    {l : Loop} :
    (if p then CallPc.returned result
      else if q then CallPc.returned result' else CallPc.iterating l).reserved e = false := by
  by_cases hp : p <;> by_cases hq : q <;> simp [hp, hq, CallPc.reserved]

/-- The inversion lemma for `stepCall`. -/
theorem endpointStep_of_stepCall {endpoints' : String → EndpointState}
    (h : stepCall options s inp pc = some (endpoints', pc')) (e : String) :
    EndpointStep options s.now e (s.endpoints e) pc (endpoints' e) pc' := by
  cases pc with
  | ordering now pending ordered =>
      cases pending with
      | nil =>
          simp only [stepCall] at h
          split at h <;> cases h <;> exact .same rfl
      | cons endpoint pending =>
          simp only [stepCall] at h
          split at h <;> cases h <;> exact .same rfl
  | iterating l =>
      obtain ⟨candidates, lastError⟩ := l
      cases candidates with
      | nil =>
          cases h
          exact .same rfl
      | cons endpoint rest =>
          simp only [stepCall] at h
          repeat' split at h
          all_goals
            cases h
            exact .same rfl
  | failing endpoint l =>
      obtain ⟨state, hstate, hnext⟩ := Option.map_eq_some_iff.mp h
      cases hnext
      refine .of_update ?_ ?_ e
      · intro e _
        rfl
      · exact .record false rfl rfl hstate
  | reserving endpoint now l =>
      simp only [stepCall] at h
      split at h
      · rename_i state hstate
        cases h
        refine .of_update (fun e he => ?_) (.reserve now l rfl rfl hstate) e
        simp [CallPc.reserved, Ne.symm he]
      · cases h
        exact .same rfl
  | probing endpoint l =>
      cases h
      exact .same rfl
  | finishing endpoint success l =>
      obtain ⟨state, hstate, hnext⟩ := Option.map_eq_some_iff.mp h
      cases hnext
      refine .of_update (fun e he => ?_) (.finish success l rfl reserved_finished hstate) e
      rw [reserved_finished]
      simp [CallPc.reserved, Ne.symm he]
  | gating endpoint now l =>
      simp only [stepCall] at h
      split at h <;> cases h <;> exact .same rfl
  | borrowing endpoint l =>
      cases h
      refine .of_update ?_ ?_ e
      · intro e _
        rfl
      · exact .quiet _ rfl rfl
  | calling endpoint l =>
      cases h
      exact .same rfl
  | releasing endpoint result l =>
      cases h
      refine .of_update ?_ ?_ e
      · intro e _
        rfl
      · by_cases hidle : result.ok ∧
            (s.endpoints endpoint).idleClients < options.maxIdlePerEndpoint
        · refine .quiet ((s.endpoints endpoint).idleClients + 1) ?_ rfl
          rw [EndpointState.release, if_pos hidle]
        · refine .quiet (s.endpoints endpoint).idleClients ?_ rfl
          rw [EndpointState.release, if_neg hidle]
  | recording endpoint result l =>
      obtain ⟨state, hstate, hnext⟩ := Option.map_eq_some_iff.mp h
      cases hnext
      exact .of_update (fun e _ => reserved_recorded)
        (.record result.ok rfl reserved_recorded hstate) e
  | returned result => cases h

/-- A new call has reserved nothing. -/
theorem beginCall_reserved (s : State) (endpoints : List String) (e : String) :
    (beginCall s endpoints).2.reserved e = false := by
  by_cases hunique : (uniqueEndpoints endpoints).isEmpty = true
  · simp only [beginCall, if_pos hunique, CallPc.reserved]
  · simp only [beginCall, if_neg hunique, CallPc.reserved]

/-- What a step of the pool can do. -/
theorem step_cases (h : step options s a = some s') :
    (∃ ms, a = .tick ms ∧ s' = { s with now := s.now + ms }) ∨
    (∃ endpoints pc, a = .call endpoints ∧ s'.now = s.now ∧ s'.endpoints = s.endpoints ∧
      s'.calls = s.calls ++ [pc] ∧ ∀ e, pc.reserved e = false) ∨
    ∃ i inp pc pc', a = .advance i inp ∧ s.calls[i]? = some pc ∧ s'.now = s.now ∧
      s'.calls = s.calls.set i pc' ∧
      ∀ e, EndpointStep options s.now e (s.endpoints e) pc (s'.endpoints e) pc' := by
  cases a with
  | tick ms =>
      cases h
      exact .inl ⟨ms, rfl, rfl⟩
  | call endpoints =>
      cases h
      exact .inr (.inl ⟨endpoints, _, rfl, rfl, rfl, rfl, beginCall_reserved s endpoints⟩)
  | advance i inp =>
      simp only [step] at h
      split at h
      · cases h
      · rename_i pc hpc
        obtain ⟨⟨endpoints', pc'⟩, hcall, hnext⟩ := Option.map_eq_some_iff.mp h
        cases hnext
        exact .inr (.inr ⟨i, inp, pc, pc', rfl, hpc, rfl, rfl, endpointStep_of_stepCall hcall⟩)

/-! ## No endpoint is stuck half-open -/

/-- The invariant of an endpoint. -/
structure Recoverable (options : Options) (s : State) (e : String) : Prop where
  /-- A half-open endpoint has a probe, and its failures have reached the
  threshold. -/
  halfOpen : (s.endpoints e).circuitState = .halfOpen →
    (s.endpoints e).halfOpenProbeInFlight = true ∧
    options.failureThreshold ≤ (s.endpoints e).consecutiveFailures ∧
    ∃ (i : Nat) (pc : CallPc), s.calls[i]? = some pc ∧ pc.reserved e = true
  /-- An open endpoint has none and waits for the end of a cooldown. -/
  opened : (s.endpoints e).circuitState = .open →
    options.failureThreshold ≤ (s.endpoints e).consecutiveFailures ∧
    (s.endpoints e).halfOpenProbeInFlight = false ∧
    (s.endpoints e).unhealthyUntil ≤ s.now + options.cooldownMs.toNat

/-- A record leaves the circuit closed or open.  The failures have reached the
threshold unless it is closed, so a failed probe opens it again. -/
theorem record_result (hstate : state.record options now success = some state')
    (hfailures : state.circuitState ≠ .closed →
      options.failureThreshold ≤ state.consecutiveFailures) :
    state'.circuitState = .closed ∨
      state'.circuitState = .open ∧ options.failureThreshold ≤ state'.consecutiveFailures ∧
        state'.halfOpenProbeInFlight = false ∧
        state'.unhealthyUntil = now + options.cooldownMs.toNat := by
  cases success with
  | true =>
      cases hstate
      exact .inl rfl
  | false =>
      simp only [EndpointState.record, EndpointState.recordFailure, Bool.false_eq_true,
        if_false] at hstate
      split at hstate
      · cases hstate
      · split at hstate
        · rename_i hreached
          cases hstate
          exact .inr ⟨rfl, hreached, rfl, rfl⟩
        · rename_i hbelow
          cases hstate
          left
          by_contra hopen
          have hthreshold := hfailures hopen
          push_cast at hbelow
          omega

theorem Recoverable.failures (h : Recoverable options s e)
    (hopen : (s.endpoints e).circuitState ≠ .closed) :
    options.failureThreshold ≤ (s.endpoints e).consecutiveFailures := by
  cases hcircuit : (s.endpoints e).circuitState with
  | closed => exact absurd hcircuit hopen
  | «open» => exact (h.opened hcircuit).1
  | halfOpen => exact (h.halfOpen hcircuit).2.1

/-- After a record nothing is half-open. -/
theorem Recoverable.of_record (h : Recoverable options s e) (hnow : s'.now = s.now)
    (hstate : (s.endpoints e).record options s.now success = some (s'.endpoints e)) :
    Recoverable options s' e := by
  rcases record_result hstate h.failures with hclosed | ⟨hopen, hfailures, hflight, huntil⟩
  · constructor
    · intro hhalf
      rw [hclosed] at hhalf
      cases hhalf
    · intro hopen
      rw [hclosed] at hopen
      cases hopen
  · constructor
    · intro hhalf
      rw [hopen] at hhalf
      cases hhalf
    · intro _
      exact ⟨hfailures, hflight, by rw [huntil, hnow]⟩

theorem reserve_result (h : state.reserveHalfOpenProbe now = some state') :
    state.circuitState = .open ∧
      state' = { state with circuitState := .halfOpen, halfOpenProbeInFlight := true } := by
  unfold EndpointState.reserveHalfOpenProbe at h
  split at h
  · cases h
  · rename_i hopen
    simp only [not_or, not_not] at hopen
    exact ⟨hopen.1, (Option.some.inj h).symm⟩

/-- A call at `e` that is kept by a step, or the one that makes it. -/
theorem exists_reserved_of_step (hpc : s.calls[i]? = some pc)
    (hcalls : s'.calls = s.calls.set i pc') (hreserved : pc'.reserved e = pc.reserved e)
    (h : ∃ (j : Nat) (q : CallPc), s.calls[j]? = some q ∧ q.reserved e = true) :
    ∃ (j : Nat) (q : CallPc), s'.calls[j]? = some q ∧ q.reserved e = true := by
  obtain ⟨j, q, hq, hres⟩ := h
  rw [hcalls]
  by_cases hj : j = i
  · subst hj
    rw [hpc] at hq
    cases hq
    exact ⟨j, pc', thread_set_self hpc, by rw [hreserved, hres]⟩
  · exact ⟨j, q, thread_set_other hj hq, hres⟩

theorem Recoverable.step (hstep : step options s a = some s') (h : Recoverable options s e) :
    Recoverable options s' e := by
  rcases step_cases hstep with ⟨ms, -, rfl⟩ | ⟨_, pc, -, hnow, hendpoints, hcalls, -⟩ |
      ⟨i, _, pc, pc', -, hpc, hnow, hcalls, hendpoint⟩
  · refine ⟨h.halfOpen, fun hopen => ?_⟩
    obtain ⟨hfailures, hflight, huntil⟩ := h.opened hopen
    exact ⟨hfailures, hflight, by simp only; omega⟩
  · constructor
    · intro hhalf
      rw [hendpoints] at hhalf ⊢
      obtain ⟨hflight, hfailures, j, q, hq, hreserved⟩ := h.halfOpen hhalf
      refine ⟨hflight, hfailures, j, q, ?_, hreserved⟩
      rw [hcalls, List.getElem?_append_left (List.getElem?_eq_some_iff.mp hq).1]
      exact hq
    · intro hopen
      rw [hendpoints] at hopen ⊢
      rw [hnow]
      exact h.opened hopen
  · cases hendpoint e with
    | quiet idle hstate hreserved =>
        constructor
        · intro hhalf
          rw [hstate] at hhalf ⊢
          obtain ⟨hflight, hfailures, hexists⟩ := h.halfOpen hhalf
          exact ⟨hflight, hfailures, exists_reserved_of_step hpc hcalls hreserved hexists⟩
        · intro hopen
          rw [hstate] at hopen ⊢
          rw [hnow]
          exact h.opened hopen
    | reserve now l hpc₁ hpc' hstate =>
        obtain ⟨hopen, hnew⟩ := reserve_result hstate
        constructor
        · intro _
          rw [hnew]
          refine ⟨rfl, (h.opened hopen).1, i, pc', ?_, by simp [hpc', CallPc.reserved]⟩
          rw [hcalls]
          exact thread_set_self hpc
        · intro hopen'
          rw [hnew] at hopen'
          cases hopen'
    | finish success l _ _ hstate => exact h.of_record hnow hstate
    | record success _ _ hstate => exact h.of_record hnow hstate

/-- A pool that has just been built. -/
def built (now : Nat) : State := { now := now }

theorem recoverable_of_run {trace : List PoolTransition}
    (hrun : Run (step options) (built now) trace s) (e : String) :
    Recoverable options s e := by
  have hinit : Recoverable options (built now) e := by
    constructor
    · intro hhalf
      cases hhalf
    · intro hopen
      cases hopen
  exact hrun.invariant (P := (Recoverable options · e)) hinit fun τ _ hstep h =>
    Recoverable.step hstep h

/-- A call is over. -/
def CallPc.isReturned : CallPc → Bool
  | .returned _ => true
  | _ => false

/-- **No endpoint gets stuck half-open.**  In every run of any number of calls,
a half-open endpoint has its flag set, has reached the threshold and has a call
that has reserved a probe and not finished it; an open one has reached the
threshold, has its flag cleared and can be probed again at the latest when a
cooldown has passed.  When no call is in progress, every endpoint is closed or
open. -/
theorem endpoint_never_stuck (options : Options) (now : Nat) (trace : List PoolTransition)
    (s : State) (hrun : Run (step options.normalized) (built now) trace s) (e : String) :
    ((s.endpoints e).circuitState = .halfOpen →
      (s.endpoints e).halfOpenProbeInFlight = true ∧
      options.normalized.failureThreshold ≤ (s.endpoints e).consecutiveFailures ∧
      ∃ (i : Nat) (pc : CallPc), s.calls[i]? = some pc ∧ pc.reserved e = true) ∧
    ((s.endpoints e).circuitState = .open →
      options.normalized.failureThreshold ≤ (s.endpoints e).consecutiveFailures ∧
      (s.endpoints e).halfOpenProbeInFlight = false ∧
      ∀ later ≥ s.now + options.normalized.cooldownMs.toNat,
        (s.endpoints e).isHealthyEnough later = true ∧
        ((s.endpoints e).reserveHalfOpenProbe later).isSome = true) ∧
    (s.calls.all CallPc.isReturned = true →
      (s.endpoints e).circuitState = .closed ∨ (s.endpoints e).circuitState = .open) := by
  have h := recoverable_of_run hrun e
  refine ⟨h.halfOpen, fun hopen => ?_, fun hidle => ?_⟩
  · obtain ⟨hfailures, hflight, huntil⟩ := h.opened hopen
    refine ⟨hfailures, hflight, fun later hlater => ?_⟩
    have hpast : (s.endpoints e).unhealthyUntil ≤ later := huntil.trans hlater
    simp [EndpointState.isHealthyEnough, EndpointState.reserveHalfOpenProbe, hopen, hflight,
      hpast, Nat.not_lt.mpr hpast]
  · cases hcircuit : (s.endpoints e).circuitState with
    | closed => exact .inl rfl
    | «open» => exact .inr rfl
    | halfOpen =>
        obtain ⟨-, -, i, pc, hpc, hreserved⟩ := h.halfOpen hcircuit
        have hreturned := List.all_eq_true.mp hidle pc (List.mem_of_getElem? hpc)
        cases pc <;> simp [CallPc.isReturned, CallPc.reserved] at hreturned hreserved

/-! ## A run with a probe -/

/-- Call `i` makes `n` steps; everything outside goes well. -/
def advances (i n : Nat) : List Action := List.replicate n (.advance i {})

/-- A client that cannot connect. -/
def unreachable : Input := { client := ⟨false, "connect failed", .connectFailed⟩ }

/-- Open at the first failure, and do not wait. -/
def eagerOptions : Options := { failureThreshold := 1, cooldownMs := 0 }

/-- A call fails and opens the circuit; the next one has its probe in flight. -/
def openedRun : List Action :=
  [.call ["h:1"]] ++ advances 0 6 ++ [.advance 0 unreachable] ++ advances 0 3 ++
    [.call ["h:1"]] ++ advances 1 4

/-- The endpoint of `openedRun` is half-open and has a call that will finish its
probe. -/
theorem endpoint_never_stuck_probing :
    ∃ trace s, Run (step eagerOptions.normalized) (built 0) trace s ∧
      (s.endpoints "h:1").circuitState = .halfOpen ∧
      ∃ (i : Nat) (pc : CallPc), s.calls[i]? = some pc ∧ pc.reserved "h:1" = true := by
  have hexec : (execute (step eagerOptions.normalized) (built 0) openedRun).any
      (fun s => (s.endpoints "h:1").circuitState = .halfOpen) = true := by decide +kernel
  obtain ⟨s, hrun, hhalf⟩ := exists_run_of_execute hexec
  have hcircuit : (s.endpoints "h:1").circuitState = .halfOpen := by simpa using hhalf
  obtain ⟨-, -, hexists⟩ :=
    (endpoint_never_stuck eagerOptions 0 _ s hrun "h:1").1 hcircuit
  exact ⟨_, s, hrun, hcircuit, hexists⟩

end RpcClientPool
end Corpcron
