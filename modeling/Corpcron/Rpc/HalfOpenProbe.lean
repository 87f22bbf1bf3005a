import Corpcron.Rpc.CircuitBreaker

/-!
# One probe at a time

Half-open is meant to let a single `HealthCheck` through and to close the
circuit only when that succeeds.  A call that has passed the gate while the
circuit was closed records its outcome whenever it is over, without looking at
the circuit: a late success closes it, and a late failure opens it again and
clears the flag of the probe that is running, so that another call can reserve a
second one.

`undisturbed` says of a transition that no such late record happens in it.
Without them a reserved probe is the only one, the circuit is half-open from its
reservation to its end, and nothing else closes it.
-/

namespace Corpcron
namespace RpcClientPool

open Lib

/-! ## Late records -/

/-- The outcome of an ordinary call recorded by a transition. -/
def recordedBy? (τ : PoolTransition) : Option (String × Bool) :=
  match τ.action with
  | .advance i _ => (τ.pre.calls[i]?).bind CallPc.records?
  | _ => none

/-- An ordinary call records a success only at a closed circuit, and a failure
not at a half-open one. -/
def undisturbed (τ : PoolTransition) : Bool :=
  match recordedBy? τ with
  | none => true
  | some (e, true) => (τ.pre.endpoints e).circuitState = .closed
  | some (e, false) => (τ.pre.endpoints e).circuitState ≠ .halfOpen

variable {options : Options} {s : State} {τ : PoolTransition} {trace : List PoolTransition}
  {inp : Input} {pc : CallPc} {e : String} {now : Nat} {success : Bool}
  {state state' : EndpointState}

theorem recordedBy?_advance {i : Nat} (haction : τ.action = .advance i inp)
    (hpc : τ.pre.calls[i]? = some pc) :
    recordedBy? τ = pc.records? := by
  simp [recordedBy?, haction, hpc]

theorem circuit_of_undisturbed (h : undisturbed τ = true)
    (hrecord : recordedBy? τ = some (e, success)) :
    (τ.pre.endpoints e).circuitState ≠ .halfOpen ∧
      (success = true → (τ.pre.endpoints e).circuitState = .closed) := by
  unfold undisturbed at h
  rw [hrecord] at h
  cases success with
  | true =>
      have hclosed : (τ.pre.endpoints e).circuitState = .closed := by simpa using h
      exact ⟨by rw [hclosed]; decide, fun _ => hclosed⟩
  | false =>
      exact ⟨by simpa using h, fun hfalse => by cases hfalse⟩

/-! ## Reservations -/

/-- Call `i` reserves a probe of `e`. -/
structure Reserves (τ : PoolTransition) (i : Nat) (e : String) : Prop where
  byCall : ∃ inp, τ.action = .advance i inp
  before : ∃ now l, τ.pre.calls[i]? = some (.reserving e now l)
  after : ∃ l, τ.post.calls[i]? = some (.probing e l)
  opened : (τ.pre.endpoints e).circuitState = .open

/-- Call `i` has reserved a probe of `e`, and the circuit has been half-open
since. -/
def ReservedSince (trace : List PoolTransition) (i : Nat) (e : String) : Prop :=
  ∃ earlier ρ between, trace = earlier ++ ρ :: between ∧ Reserves ρ i e ∧
    ∀ τ ∈ between, (τ.post.endpoints e).circuitState = .halfOpen

theorem ReservedSince.snoc {i : Nat} (h : ReservedSince trace i e)
    (hhalf : (τ.post.endpoints e).circuitState = .halfOpen) :
    ReservedSince (trace ++ [τ]) i e := by
  obtain ⟨earlier, ρ, between, rfl, hreserves, hbetween⟩ := h
  refine ⟨earlier, ρ, between ++ [τ], by simp, hreserves, fun τ' hτ' => ?_⟩
  rcases List.mem_append.mp hτ' with hold | hnew
  · exact hbetween τ' hold
  · rw [List.mem_singleton.mp hnew]
    exact hhalf

/-- The invariant of undisturbed runs: an endpoint with a reserved probe is
half-open since the reservation, and has only that one. -/
structure Disciplined (trace : List PoolTransition) (s : State) (e : String) : Prop where
  single : s.calls.countP (·.reserved e) ≤ 1
  halfOpen : ∀ (i : Nat) (pc : CallPc), s.calls[i]? = some pc → pc.reserved e = true →
    (s.endpoints e).circuitState = .halfOpen ∧ ReservedSince trace i e

/-- Where the circuit is not half-open, no call has reserved a probe. -/
theorem Disciplined.none_reserved (h : Disciplined trace s e)
    (hcircuit : (s.endpoints e).circuitState ≠ .halfOpen) :
    s.calls.countP (·.reserved e) = 0 := by
  rw [List.countP_eq_zero]
  intro pc hmem hreserved
  obtain ⟨i, hi⟩ := List.mem_iff_getElem?.mp hmem
  exact hcircuit (h.halfOpen i pc hi hreserved).1

/-- No call with a reservation: nothing to show. -/
theorem Disciplined.of_none (hnone : s.calls.countP (·.reserved e) = 0) :
    Disciplined trace s e := by
  refine ⟨by omega, fun i pc hpc hreserved => ?_⟩
  have hpos := countP_pos_of_thread (p := (CallPc.reserved e ·)) hpc hreserved
  omega

/-- A step that leaves circuit and reservations of `e` alone. -/
theorem Disciplined.keep (h : Disciplined trace τ.pre e)
    (hcircuit : (τ.post.endpoints e).circuitState = (τ.pre.endpoints e).circuitState)
    (hcount : τ.post.calls.countP (·.reserved e) = τ.pre.calls.countP (·.reserved e))
    (hcalls : ∀ (i : Nat) (pc : CallPc), τ.post.calls[i]? = some pc → pc.reserved e = true →
      ∃ q, τ.pre.calls[i]? = some q ∧ q.reserved e = true) :
    Disciplined (trace ++ [τ]) τ.post e := by
  refine ⟨by rw [hcount]; exact h.single, fun i pc hpc hreserved => ?_⟩
  obtain ⟨q, hq, hqreserved⟩ := hcalls i pc hpc hreserved
  obtain ⟨hhalf, hsince⟩ := h.halfOpen i q hq hqreserved
  rw [← hcircuit] at hhalf
  exact ⟨hhalf, hsince.snoc hhalf⟩

theorem Disciplined.step (hstep : step options τ.pre τ.action = some τ.post)
    (hquiet : undisturbed τ = true) (h : Disciplined trace τ.pre e) :
    Disciplined (trace ++ [τ]) τ.post e := by
  rcases step_cases hstep with ⟨ms, -, hpost⟩ | ⟨_, pc, -, -, hendpoints, hcalls, hnew⟩ |
      ⟨i, inp, pc, pc', haction, hpc, -, hcalls, hendpoint⟩
  · apply h.keep
    · rw [hpost]
    · rw [hpost]
    · intro j q hq hreserved
      rw [hpost] at hq
      exact ⟨q, hq, hreserved⟩
  · apply h.keep
    · rw [hendpoints]
    · rw [hcalls, List.countP_append]
      simp [hnew e]
    · intro j q hq hreserved
      rw [hcalls, List.getElem?_append] at hq
      split at hq
      · exact ⟨q, hq, hreserved⟩
      · have hmem := List.mem_of_getElem? hq
        rw [List.mem_singleton.mp hmem, hnew e] at hreserved
        cases hreserved
  · have hcount := countP_set_add (·.reserved e) pc' hpc
    rw [← hcalls] at hcount
    cases hendpoint e with
    | quiet idle hstate hreserved =>
        apply h.keep
        · rw [hstate]
        · rw [hreserved] at hcount
          omega
        · intro j q hq hq'
          rw [hcalls] at hq
          rcases thread_of_set hq with ⟨rfl, rfl⟩ | ⟨-, hold⟩
          · exact ⟨pc, hpc, by rw [← hreserved, hq']⟩
          · exact ⟨q, hold, hq'⟩
    | reserve now l hpc₁ hpc' hstate =>
        obtain ⟨hopen, hhalf⟩ := reserve_result hstate
        have hnone := h.none_reserved (by rw [hopen]; decide)
        have hafter : pc'.reserved e = true := by simp [hpc', CallPc.reserved]
        rw [if_pos hafter, if_neg (by simp [hpc₁, CallPc.reserved])] at hcount
        refine ⟨by omega, fun j q hq hq' => ⟨by rw [hhalf], ?_⟩⟩
        -- The one reservation is the one of this step.
        rw [hcalls] at hq
        rcases thread_of_set hq with ⟨rfl, rfl⟩ | ⟨-, hold⟩
        · refine ⟨trace, τ, [], rfl, ⟨⟨inp, haction⟩, ⟨now, l, hpc₁ ▸ hpc⟩, ⟨l, ?_⟩, hopen⟩,
            by simp⟩
          rw [hcalls, ← hpc']
          exact thread_set_self hpc
        · have hpos := countP_pos_of_thread (p := (CallPc.reserved e ·)) hold hq'
          omega
    | finish success l hpc₁ hpc' hstate =>
        have hsingle := h.single
        have hbefore : pc.reserved e = true := by simp [hpc₁, CallPc.reserved]
        rw [if_pos hbefore, if_neg (Bool.eq_false_iff.mp hpc')] at hcount
        exact .of_none (by omega)
    | record success hrecords hpc' hstate =>
        have hrecord : recordedBy? τ = some (e, success) := by
          rw [recordedBy?_advance haction hpc, hrecords]
        have hnone := h.none_reserved (circuit_of_undisturbed hquiet hrecord).1
        rw [if_neg (Bool.eq_false_iff.mp hpc')] at hcount
        exact .of_none (by omega)

theorem disciplined_of_run (hrun : Run (step options) (built now) trace s)
    (hquiet : ∀ τ ∈ trace, undisturbed τ = true) (e : String) : Disciplined trace s e := by
  refine hrun.history_invariant (P := fun trace s => Disciplined trace s e) (.of_none rfl) ?_
  intro earlier τ hinitial _ hstep h
  exact h.step hstep (hquiet τ (hinitial.subset (by simp)))

/-! ## Closing -/

/-- A failure does not close a circuit. -/
theorem closed_of_recordFailure (h : state.recordFailure options now = some state')
    (hclosed : state'.circuitState = .closed) :
    state.circuitState = .closed := by
  simp only [EndpointState.recordFailure] at h
  split at h
  · cases h
  · split at h
    · cases h
      cases hclosed
    · cases h
      exact hclosed

/-- A transition that closes the circuit of `e` is the successful end of a probe
or the record of a success. -/
theorem closing_cases (hstep : step options τ.pre τ.action = some τ.post)
    (hopen : (τ.pre.endpoints e).circuitState ≠ .closed)
    (hclosed : (τ.post.endpoints e).circuitState = .closed) :
    (∃ i inp l, τ.action = .advance i inp ∧ τ.pre.calls[i]? = some (.finishing e true l)) ∨
      recordedBy? τ = some (e, true) := by
  rcases step_cases hstep with ⟨ms, -, hpost⟩ | ⟨_, pc, -, -, hendpoints, -, -⟩ |
      ⟨i, inp, pc, pc', haction, hpc, -, -, hendpoint⟩
  · rw [hpost] at hclosed
    exact absurd hclosed hopen
  · rw [hendpoints] at hclosed
    exact absurd hclosed hopen
  · cases hendpoint e with
    | quiet idle hstate hreserved =>
        rw [hstate] at hclosed
        exact absurd hclosed hopen
    | reserve now l hpc₁ hpc' hstate =>
        rw [(reserve_result hstate).2] at hclosed
        cases hclosed
    | finish success l hpc₁ hpc' hstate =>
        cases success with
        | true => exact .inl ⟨i, inp, l, haction, hpc₁ ▸ hpc⟩
        | false => exact absurd (closed_of_recordFailure hstate hclosed) hopen
    | record success hrecords hpc' hstate =>
        cases success with
        | true => exact .inr (by rw [recordedBy?_advance haction hpc, hrecords])
        | false => exact absurd (closed_of_recordFailure hstate hclosed) hopen

/-- **Half-open discipline.**  In a run in which no ordinary call records a
success at a circuit that is not closed, or a failure at a half-open one: no
endpoint ever has two probes, and a circuit that is not closed is closed only by
the successful end of a probe that was reserved when it was open, with the
circuit half-open from there on. -/
theorem half_open_discipline (options : Options) (now : Nat) (trace : List PoolTransition)
    (s : State) (hrun : Run (step options.normalized) (built now) trace s)
    (hquiet : ∀ τ ∈ trace, undisturbed τ = true) (e : String) :
    s.calls.countP (·.reserved e) ≤ 1 ∧
    ∀ before τ after, trace = before ++ τ :: after →
      (τ.pre.endpoints e).circuitState ≠ .closed →
      (τ.post.endpoints e).circuitState = .closed →
      ∃ i inp l, τ.action = .advance i inp ∧ τ.pre.calls[i]? = some (.finishing e true l) ∧
        ReservedSince before i e := by
  refine ⟨(disciplined_of_run hrun hquiet e).single, ?_⟩
  rintro before τ after rfl hopen hclosed
  obtain ⟨hbefore, hstep, -⟩ := hrun.split
  have hdisciplined := disciplined_of_run hbefore
    (fun τ' hτ' => hquiet τ' (List.mem_append_left _ hτ')) e
  rcases closing_cases hstep hopen hclosed with ⟨i, inp, l, haction, hpc⟩ | hrecord
  · have hreserved : (CallPc.finishing e true l).reserved e = true := by simp [CallPc.reserved]
    exact ⟨i, inp, l, haction, hpc, (hdisciplined.halfOpen i _ hpc hreserved).2⟩
  · have hcircuit := circuit_of_undisturbed (hquiet τ (by simp)) hrecord
    exact absurd (hcircuit.2 rfl) hopen

/-- After `openedRun` the probe succeeds. -/
def probedRun : List Action := openedRun ++ advances 1 2

/-- In `probedRun` nothing is recorded late, and the circuit is closed by the end
of the probe. -/
theorem half_open_discipline_probed :
    ∃ before τ after s,
      Run (step eagerOptions.normalized) (built 0) (before ++ τ :: after) s ∧
      (τ.pre.endpoints "h:1").circuitState = .halfOpen ∧
      (τ.post.endpoints "h:1").circuitState = .closed ∧
      ∃ i inp l, τ.action = .advance i inp ∧
        τ.pre.calls[i]? = some (.finishing "h:1" true l) ∧ ReservedSince before i "h:1" := by
  obtain ⟨s, hrun⟩ := exists_run_of_isSome
    (show (execute (step eagerOptions.normalized) (built 0) probedRun).isSome = true by
      decide +kernel)
  have hquiet : ∀ τ ∈ executeTrace (step eagerOptions.normalized) (built 0) probedRun,
      undisturbed τ = true := List.all_eq_true.mp (by decide +kernel)
  generalize htrace : executeTrace (step eagerOptions.normalized) (built 0) probedRun = trace
    at hrun hquiet
  obtain ⟨τ, hcut, hclosing⟩ := exists_cut_of_getElem? (l := trace) 17
    (p := fun τ => decide ((τ.pre.endpoints "h:1").circuitState = .halfOpen) &&
      decide ((τ.post.endpoints "h:1").circuitState = .closed)) (by subst htrace; decide +kernel)
  simp only [Bool.and_eq_true, decide_eq_true_eq] at hclosing
  obtain ⟨-, hclosed⟩ := half_open_discipline eagerOptions 0 trace s hrun hquiet "h:1"
  have hprobe := hclosed _ τ _ hcut (by rw [hclosing.1]; decide) hclosing.2
  exact ⟨_, τ, _, s, hcut ▸ hrun, hclosing.1, hclosing.2, hprobe⟩

/-- A `HealthCheck` of the endpoint is in flight. -/
def CallPc.isProbing (endpoint : String) : CallPc → Bool
  | .probing e _ => e == endpoint
  | _ => false

/-- Three calls pass the gate.  The first fails and opens the circuit, and a
fourth call probes it.  Then the second fails, late, and a fifth call probes
again. -/
def lateFailureRun : List Action :=
  [.call ["h:1"], .call ["h:1"], .call ["h:1"]] ++
    advances 0 6 ++ advances 1 6 ++ advances 2 6 ++
    [.advance 0 unreachable] ++ advances 0 2 ++ [.call ["h:1"]] ++ advances 3 4 ++
    [.advance 1 unreachable] ++ advances 1 2 ++ [.call ["h:1"]] ++ advances 4 4

/-- Two probes are in flight after `lateFailureRun`; the success of the third
call, an ordinary one, then closes the half-open circuit. -/
theorem second_probe_and_late_close :
    ∃ first m second s τ, Run (step eagerOptions.normalized) (built 0) first m ∧
      m.calls.countP (CallPc.isProbing "h:1") = 2 ∧
      Run (step eagerOptions.normalized) m second s ∧ τ ∈ second ∧
      recordedBy? τ = some ("h:1", true) ∧
      (τ.pre.endpoints "h:1").circuitState = .halfOpen ∧
      (τ.post.endpoints "h:1").circuitState = .closed := by
  obtain ⟨s, hrun⟩ := exists_run_of_isSome
    (show (execute (step eagerOptions.normalized) (built 0)
      (lateFailureRun ++ advances 2 3)).isSome = true by decide +kernel)
  generalize htrace : executeTrace (step eagerOptions.normalized) (built 0)
    (lateFailureRun ++ advances 2 3) = trace at hrun
  obtain ⟨τ₁, hcut₁, hprobes⟩ := exists_cut_of_getElem? (l := trace) 37
    (p := fun τ => decide (τ.pre.calls.countP (CallPc.isProbing "h:1") = 2))
    (by subst htrace; decide +kernel)
  obtain ⟨τ₂, hcut₂, hlate⟩ := exists_cut_of_getElem? (l := trace.drop 38) 1
    (p := fun τ => decide (recordedBy? τ = some ("h:1", true)) &&
      decide ((τ.pre.endpoints "h:1").circuitState = .halfOpen) &&
      decide ((τ.post.endpoints "h:1").circuitState = .closed)) (by subst htrace; decide +kernel)
  simp only [Bool.and_eq_true, decide_eq_true_eq] at hprobes hlate
  rw [hcut₁] at hrun
  obtain ⟨m, hfirst, hsecond⟩ := hrun.of_append
  obtain ⟨rfl, -, -⟩ := hsecond.of_cons
  have hmem : τ₂ ∈ τ₁ :: trace.drop 38 := by
    rw [hcut₂]
    simp
  exact ⟨_, _, _, s, τ₂, hfirst, hprobes, hsecond, hmem, hlate.1.1, hlate.1.2, hlate.2⟩

end RpcClientPool
end Corpcron
