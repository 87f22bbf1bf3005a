import Corpcron.Lib.Protocol
import Corpcron.Lib.Threads
import Corpcron.Metrics.AlertRules
import Corpcron.Rpc.Authorization
import Mathlib.Data.Finset.Card
import Mathlib.Data.List.Nodup

/-!
# Requests and outcomes in a snapshot

The threads of a process dispatch requests and take snapshots.  What a thread
still has to do is a program of the dispatcher, so the requests count what the
dispatcher counts: with the default interceptors a request is counted when it
begins and its outcome, once, when it ends (`dispatchStreamWithContext_obeys`).

`Metrics::snapshot` is not atomic.  It loads the requests first, then the
successes, then the errors, and other threads run in between; only these loads
are steps of their own here, the rest of a snapshot is an input.  A request that
begins after the first load and ends before the load of its outcome is in the
snapshot with its outcome alone.  The outcomes exceed the requests exactly when
such requests are more than the earlier ones whose outcome has not been seen
(`outcomes_le_requests_iff`).
-/

namespace Corpcron
namespace RpcOutcomes

open Lib Dispatching RpcDispatcher AlertRules

/-! ## The protocol of a request -/

/-- `makeDefaultRpcInterceptorChain`. -/
def makeDefaultRpcInterceptorChain : List RpcInterceptor := [.logging, .metrics, .exception]

/-- What has been counted of a request. -/
inductive RequestPhase where
  | fresh
  | begun
  | ended

namespace RequestPhase

/-- A request is counted before its one outcome. -/
def next : RequestPhase → DispatchOp → Option RequestPhase
  | .fresh, .count .rpcRequest => some .begun
  | .begun, .count .rpcSuccess => some .ended
  | .begun, .count .rpcError => some .ended
  | phase, op => if op.countsRpc then none else some phase

theorem next_of_countsRpc {op : DispatchOp} (h : op.countsRpc = false) (phase : RequestPhase) :
    phase.next op = some phase := by
  cases op with
  | count event => cases event <;> cases phase <;> first | rfl | cases h
  | _ => cases phase <;> rfl

/-- Whether the request has been counted, as a number. -/
def requests : RequestPhase → Nat
  | .fresh => 0
  | .begun | .ended => 1

/-- Whether the outcome has been counted, as a number. -/
def outcomes : RequestPhase → Nat
  | .fresh | .begun => 0
  | .ended => 1

theorem outcomes_le_requests (phase : RequestPhase) : phase.outcomes ≤ phase.requests := by
  cases phase <;> decide

end RequestPhase

section Protocol

variable {pf : Platform} {d : RpcDispatcher} {codec : Codec} {payload : List UInt8}
  {serialId : UInt32}

/-- `RpcExceptionInterceptor` lets no exception through. -/
theorem intercept_exception_obeys {next : Dispatching (Thrown RpcResponse)} {phase : RequestPhase}
    (hnext : next.Only (·.countsRpc = false)) :
    (intercept next .exception).Obeys RequestPhase.next phase
      fun result phase' => phase' = phase ∧ ∃ response, result = .ok response := by
  refine Program.obeys_bind (hnext.obeys fun _ h => RequestPhase.next_of_countsRpc h phase) ?_
  rintro result _ rfl
  cases result with
  | ok response => exact ⟨rfl, response, rfl⟩
  | error what => exact ⟨rfl, _, rfl⟩

theorem count_request_obeys : (count .rpcRequest).Obeys RequestPhase.next .fresh
    fun _ phase => phase = .begun :=
  ⟨.begun, rfl, fun _ => rfl⟩

theorem count_outcome_obeys (success : Bool) :
    (count (if success then .rpcSuccess else .rpcError)).Obeys RequestPhase.next .begun
      fun _ phase => phase = .ended := by
  cases success with
  | false => exact ⟨.ended, rfl, fun _ => rfl⟩
  | true => exact ⟨.ended, rfl, fun _ => rfl⟩

theorem intercept_metrics_obeys {next : Dispatching (Thrown RpcResponse)}
    (hnext : next.Obeys RequestPhase.next .begun
      fun result phase => phase = .begun ∧ ∃ response, result = .ok response) :
    (intercept next .metrics).Obeys RequestPhase.next .fresh fun _ phase => phase = .ended := by
  refine Program.obeys_bind count_request_obeys ?_
  rintro _ _ rfl
  refine Program.obeys_bind hnext ?_
  rintro result _ ⟨rfl, response, rfl⟩
  refine Program.obeys_bind (count_outcome_obeys _) ?_
  rintro _ _ rfl
  rfl

/-- Unary requests are counted by the default interceptors, streaming requests
by the dispatcher; a stream that the role does not allow is not counted. -/
theorem dispatchStreamWithContext_obeys (hchain : d.interceptors = makeDefaultRpcInterceptorChain) :
    (dispatchStreamWithContext pf d codec payload serialId).Obeys RequestPhase.next .fresh
      fun _ phase => phase ≠ .begun := by
  unfold dispatchStreamWithContext
  split
  · have hunary : (dispatchWithContext pf d codec payload serialId).Obeys RequestPhase.next .fresh
        fun _ phase => phase = .ended := by
      unfold dispatchWithContext
      rw [hchain]
      exact intercept_metrics_obeys (intercept_exception_obeys dispatchCore_countsNoRpc)
    refine Program.obeys_bind hunary ?_
    rintro result _ rfl
    rintro ⟨⟩
  · split
    · rintro ⟨⟩
    · have hstream : (handleStreamMetrics d codec payload).Only (·.countsRpc = false) :=
        handleStreamMetrics_only rfl
      refine Program.obeys_bind count_request_obeys ?_
      rintro _ _ rfl
      refine Program.obeys_bind
        (hstream.obeys fun _ h => RequestPhase.next_of_countsRpc h .begun) ?_
      rintro responses _ rfl
      refine Program.obeys_bind (count_outcome_obeys _) ?_
      rintro _ _ rfl
      rintro ⟨⟩

end Protocol

/-! ## The process -/

/-- The counters of requests in `Metrics`. -/
structure RpcCounters where
  requests : Nat := 0
  success : Nat := 0
  error : Nat := 0

/-- `incRpcRequest`, `incRpcSuccess` and `incRpcError`. -/
def RpcCounters.add (counters : RpcCounters) : MetricsEvent → RpcCounters
  | .rpcRequest => { counters with requests := counters.requests + 1 }
  | .rpcSuccess => { counters with success := counters.success + 1 }
  | .rpcError => { counters with error := counters.error + 1 }
  | _ => counters

/-- A thread: it runs a program, or it is inside `snapshot`, where it has loaded
the requests, or these and the successes. -/
inductive Thread where
  | running (program : Dispatching Unit)
  | loadedRequests (requests : Nat) (next : MetricsSnapshot → Dispatching Unit)
  | loadedSuccess (requests success : Nat) (next : MetricsSnapshot → Dispatching Unit)

/-- What a step of a thread does to the counters of requests. -/
inductive Event where
  | local
  | counts (event : MetricsEvent)
  | loadsRequests
  | loadsSuccess
  /-- The load of the errors, with the snapshot it is part of. -/
  | loadsError (snapshot : MetricsSnapshot)

def Event.apply : Event → RpcCounters → RpcCounters
  | .counts event, counters => counters.add event
  | _, counters => counters

/-- The replies of everything that a thread calls; the one to `snapshot` has the
fields that are not loaded here. -/
abbrev Replies := (op : DispatchOp) → op.Reply

/-- One step of a thread. -/
def Thread.advance (counters : RpcCounters) (replies : Replies) : Thread → Option (Event × Thread)
  | .running (.done _) => none
  | .running (.call .snapshot next) =>
      some (.loadsRequests, .loadedRequests counters.requests next)
  | .running (.call (.count event) next) => some (.counts event, .running (next ()))
  | .running (.call op next) => some (.local, .running (next (replies op)))
  | .loadedRequests requests next =>
      some (.loadsSuccess, .loadedSuccess requests counters.success next)
  | .loadedSuccess requests success next =>
      let snapshot : MetricsSnapshot :=
        { replies .snapshot with
          rpcRequestsTotal := requests
          rpcSuccessTotal := success
          rpcErrorTotal := counters.error }
      some (.loadsError snapshot, .running (next snapshot))

structure State where
  counters : RpcCounters
  threads : List Thread

/-- A process that has just been started. -/
def State.built : State where
  counters := {}
  threads := []

inductive Action where
  /-- A frame arrives: `dispatchStreamWithContext` is called. -/
  | dispatch (payload : List UInt8) (serialId : UInt32)
  /-- `MetricsExporter` answers a `GET` of `/metrics` or `/alerts`. -/
  | scrape
  | advance (i : Nat) (replies : Replies)

/-- What the exporter does with the metrics. -/
def exporter : Dispatching Unit := do
  let _ ← snapshot

variable (pf : Platform) (d : RpcDispatcher) (codec : Codec)

/-- What the thread of a request runs. -/
def request (payload : List UInt8) (serialId : UInt32) : Dispatching Unit := do
  let _ ← dispatchStreamWithContext pf d codec payload serialId

def step (s : State) : Action → Option State
  | .dispatch payload serialId =>
      some { s with threads := s.threads ++ [.running (request pf d codec payload serialId)] }
  | .scrape => some { s with threads := s.threads ++ [.running exporter] }
  | .advance i replies => do
      let t ← s.threads[i]?
      let (event, t') ← t.advance s.counters replies
      some ⟨event.apply s.counters, s.threads.set i t'⟩

abbrev OutcomeTransition := Transition State Action

/-! ## What has been counted -/

deriving instance DecidableEq for MetricsEvent

/-- The thread that makes a step, and what it does. -/
def eventOf (τ : OutcomeTransition) : Option (Nat × Event) :=
  match τ.action with
  | .advance i replies => do
      let t ← τ.pre.threads[i]?
      let (event, _) ← t.advance τ.pre.counters replies
      some (i, event)
  | _ => none

/-- The event counts `kind`. -/
def Event.isCount (kind : MetricsEvent) : Event → Bool
  | .counts event => event = kind
  | _ => false

/-- The thread that counts `kind` in a step. -/
def countedBy? (kind : MetricsEvent) (τ : OutcomeTransition) : Option Nat :=
  match eventOf τ with
  | some (i, event) => if event.isCount kind then some i else none
  | none => none

/-- The threads that have counted `kind`, in the order of their steps. -/
def countedIn (kind : MetricsEvent) (trace : List OutcomeTransition) : List Nat :=
  trace.filterMap (countedBy? kind)

/-- Thread `i` makes no step in this part of a run. -/
def Idle (i : Nat) (part : List OutcomeTransition) : Prop :=
  ∀ τ ∈ part, ∀ event, eventOf τ ≠ some (i, event)

/-- A part of a run that begins with a step of thread `i`, its only one. -/
def Begins (i : Nat) (event : Event) (part : List OutcomeTransition) : Prop :=
  ∃ τ rest, part = τ :: rest ∧ eventOf τ = some (i, event) ∧ Idle i rest

/-- The requests counted in `first`. -/
def begun (first : List OutcomeTransition) : Finset Nat := (countedIn .rpcRequest first).toFinset

/-- The requests whose outcome is in a snapshot that loads the successes after
`first ++ second` and the errors after `first ++ second ++ third`. -/
def seen (first second third : List OutcomeTransition) : Finset Nat :=
  (countedIn .rpcSuccess (first ++ second) ++
    countedIn .rpcError (first ++ second ++ third)).toFinset

/-- What a thread still does agrees with what has been counted of its request. -/
def Thread.Obeys (phase : RequestPhase) : Thread → Prop
  | .running program => program.Obeys RequestPhase.next phase fun _ phase' => phase' ≠ .begun
  | .loadedRequests _ next =>
      ∀ snapshot, (next snapshot).Obeys RequestPhase.next phase fun _ phase' => phase' ≠ .begun
  | .loadedSuccess _ _ next =>
      ∀ snapshot, (next snapshot).Obeys RequestPhase.next phase fun _ phase' => phase' ≠ .begun

/-! ## Steps -/

/-- What a step does: a new thread is started, or a thread is advanced. -/
inductive Moves (s : State) : Option (Nat × Event) → State → Prop where
  | started (program : Dispatching Unit)
      (hobeys : Thread.Obeys .fresh (.running program)) :
      Moves s none { s with threads := s.threads ++ [.running program] }
  | advanced (i : Nat) (replies : Replies) (t t' : Thread) (event : Event)
      (ht : s.threads[i]? = some t) (hadvance : t.advance s.counters replies = some (event, t')) :
      Moves s (some (i, event)) ⟨event.apply s.counters, s.threads.set i t'⟩

section Steps

variable {pf d codec}

theorem exporter_obeys : Thread.Obeys .fresh (.running exporter) :=
  ⟨.fresh, rfl, fun _ => by rintro ⟨⟩⟩

theorem request_obeys (hchain : d.interceptors = makeDefaultRpcInterceptorChain)
    (payload : List UInt8) (serialId : UInt32) :
    Thread.Obeys .fresh (.running (request pf d codec payload serialId)) :=
  Program.obeys_bind (dispatchStreamWithContext_obeys hchain) fun _ _ h => h

theorem moves_of_step (hchain : d.interceptors = makeDefaultRpcInterceptorChain)
    {τ : OutcomeTransition} (h : step pf d codec τ.pre τ.action = some τ.post) :
    Moves τ.pre (eventOf τ) τ.post := by
  obtain ⟨pre, action, post⟩ := τ
  dsimp only at h ⊢
  cases action with
  | dispatch payload serialId =>
      cases h
      exact .started _ (request_obeys hchain payload serialId)
  | scrape =>
      cases h
      exact .started _ exporter_obeys
  | advance i replies =>
      simp only [step, Option.bind_eq_bind, Option.bind_eq_some_iff, Option.some.injEq] at h
      obtain ⟨t, ht, ⟨event, t'⟩, hadvance, rfl⟩ := h
      have hevent : eventOf ⟨pre, .advance i replies, ⟨event.apply pre.counters,
          pre.threads.set i t'⟩⟩ = some (i, event) := by
        simp [eventOf, ht, hadvance]
      rw [hevent]
      exact .advanced i replies t t' event ht hadvance

end Steps

/-- What has been counted of a request after an event of its thread. -/
def RequestPhase.after (phase : RequestPhase) : Event → Option RequestPhase
  | .counts event => phase.next (.count event)
  | _ => some phase

theorem Thread.Obeys.advance {t t' : Thread} {phase : RequestPhase} {counters : RpcCounters}
    {replies : Replies} {event : Event} (h : t.Obeys phase)
    (hadvance : t.advance counters replies = some (event, t')) :
    ∃ phase', phase.after event = some phase' ∧ t'.Obeys phase' := by
  cases t with
  | running program =>
      cases program with
      | done => cases hadvance
      | call op next =>
          obtain ⟨phase', hnext, hobeys⟩ := h
          cases op with
          | snapshot =>
              cases hadvance
              rw [RequestPhase.next_of_countsRpc rfl] at hnext
              cases hnext
              exact ⟨phase, rfl, hobeys⟩
          | count event =>
              cases hadvance
              exact ⟨phase', hnext, hobeys ()⟩
          | _ =>
              cases hadvance
              rw [RequestPhase.next_of_countsRpc rfl] at hnext
              cases hnext
              exact ⟨phase, rfl, hobeys _⟩
  | loadedRequests requests next =>
      cases hadvance
      exact ⟨phase, rfl, h⟩
  | loadedSuccess requests success next =>
      cases hadvance
      exact ⟨phase, rfl, h _⟩

namespace RequestPhase

variable {phase phase' : RequestPhase} {event : Event}

theorem requests_after (h : phase.after event = some phase') :
    phase'.requests = phase.requests + if event.isCount .rpcRequest then 1 else 0 := by
  cases event with
  | counts event => cases event <;> cases phase <;> cases h <;> rfl
  | _ =>
      cases h
      rfl

theorem outcomes_after (h : phase.after event = some phase') :
    phase'.outcomes = phase.outcomes + (if event.isCount .rpcSuccess then 1 else 0) +
      if event.isCount .rpcError then 1 else 0 := by
  cases event with
  | counts event => cases event <;> cases phase <;> cases h <;> rfl
  | _ =>
      cases h
      rfl

end RequestPhase

/-! ## The account -/

section Counted

variable {kind : MetricsEvent} {trace : List OutcomeTransition} {τ : OutcomeTransition} {i : Nat}
  {event : Event}

theorem countedIn_append (first second : List OutcomeTransition) :
    countedIn kind (first ++ second) = countedIn kind first ++ countedIn kind second :=
  List.filterMap_append

theorem countedIn_snoc_started (h : eventOf τ = none) :
    countedIn kind (trace ++ [τ]) = countedIn kind trace := by
  have hnone : countedBy? kind τ = none := by simp [countedBy?, h]
  rw [countedIn, filterMap_concat, hnone, Option.toList_none, List.append_nil]
  rfl

theorem countedIn_snoc (h : eventOf τ = some (i, event)) :
    countedIn kind (trace ++ [τ]) =
      countedIn kind trace ++ if event.isCount kind then [i] else [] := by
  have hcounted : countedBy? kind τ = if event.isCount kind then some i else none := by
    simp only [countedBy?, h]
  rw [countedIn, filterMap_concat, hcounted]
  split <;> rfl

theorem length_countedIn_snoc (h : eventOf τ = some (i, event)) :
    (countedIn kind (trace ++ [τ])).length =
      (countedIn kind trace).length + if event.isCount kind then 1 else 0 := by
  rw [countedIn_snoc h, List.length_append]
  split <;> rfl

theorem count_countedIn_snoc_self (h : eventOf τ = some (i, event)) :
    (countedIn kind (trace ++ [τ])).count i =
      (countedIn kind trace).count i + if event.isCount kind then 1 else 0 := by
  rw [countedIn_snoc h, List.count_append]
  split
  · rw [List.count_singleton_self]
  · rfl

theorem count_countedIn_snoc_other {j : Nat} (h : eventOf τ = some (i, event)) (hj : j ≠ i) :
    (countedIn kind (trace ++ [τ])).count j = (countedIn kind trace).count j := by
  rw [countedIn_snoc h, List.count_append]
  split
  · rw [List.count_singleton, if_neg (by simpa using hj.symm), Nat.add_zero]
  · rfl

end Counted

/-- What the threads have counted of request `i` is a phase of the protocol, and
thread `i` goes on from there. -/
def InPhase (trace : List OutcomeTransition) (threads : List Thread) (i : Nat)
    (phase : RequestPhase) : Prop :=
  (countedIn .rpcRequest trace).count i = phase.requests ∧
  (countedIn .rpcSuccess trace).count i + (countedIn .rpcError trace).count i = phase.outcomes ∧
  match threads[i]? with
  | none => phase = .fresh
  | some t => t.Obeys phase

/-- The counters hold what the threads have counted. -/
structure Accounted (trace : List OutcomeTransition) (s : State) : Prop where
  requests : s.counters.requests = (countedIn .rpcRequest trace).length
  success : s.counters.success = (countedIn .rpcSuccess trace).length
  error : s.counters.error = (countedIn .rpcError trace).length
  phases : ∀ i, ∃ phase, InPhase trace s.threads i phase

theorem accounted_built : Accounted [] State.built where
  requests := rfl
  success := rfl
  error := rfl
  phases := fun _ => ⟨.fresh, rfl, rfl, rfl⟩

theorem Event.apply_requests (event : Event) (counters : RpcCounters) :
    (event.apply counters).requests =
      counters.requests + if event.isCount .rpcRequest then 1 else 0 := by
  cases event with
  | counts event => cases event <;> rfl
  | _ => rfl

theorem Event.apply_success (event : Event) (counters : RpcCounters) :
    (event.apply counters).success =
      counters.success + if event.isCount .rpcSuccess then 1 else 0 := by
  cases event with
  | counts event => cases event <;> rfl
  | _ => rfl

theorem Event.apply_error (event : Event) (counters : RpcCounters) :
    (event.apply counters).error = counters.error + if event.isCount .rpcError then 1 else 0 := by
  cases event with
  | counts event => cases event <;> rfl
  | _ => rfl

theorem Accounted.snoc {trace : List OutcomeTransition} {τ : OutcomeTransition}
    (h : Accounted trace τ.pre) (hmoves : Moves τ.pre (eventOf τ) τ.post) :
    Accounted (trace ++ [τ]) τ.post := by
  generalize hevent : eventOf τ = moved at hmoves
  generalize τ.post = post at hmoves ⊢
  cases hmoves with
  | started program hobeys =>
      have hsame : ∀ kind, countedIn kind (trace ++ [τ]) = countedIn kind trace := fun _ =>
        countedIn_snoc_started hevent
      refine ⟨?_, ?_, ?_, fun i => ?_⟩
      · rw [hsame, h.requests]
      · rw [hsame, h.success]
      · rw [hsame, h.error]
      · obtain ⟨phase, hrequests, houtcomes, hthread⟩ := h.phases i
        refine ⟨phase, ?_⟩
        simp only [InPhase, hsame]
        refine ⟨hrequests, houtcomes, ?_⟩
        rcases thread_concat_cases τ.pre.threads i (.running program) with hi | ⟨-, hnone, hnew⟩
        · rw [hi]
          exact hthread
        · rw [hnew]
          rw [hnone] at hthread
          rw [hthread]
          exact hobeys
  | advanced i replies t t' event ht hadvance =>
      refine ⟨?_, ?_, ?_, fun j => ?_⟩
      · rw [length_countedIn_snoc hevent, Event.apply_requests, h.requests]
      · rw [length_countedIn_snoc hevent, Event.apply_success, h.success]
      · rw [length_countedIn_snoc hevent, Event.apply_error, h.error]
      · obtain ⟨phase, hrequests, houtcomes, hthread⟩ := h.phases j
        by_cases hj : j = i
        · subst hj
          rw [ht] at hthread
          obtain ⟨phase', hafter, hobeys⟩ := Thread.Obeys.advance hthread hadvance
          refine ⟨phase', ?_, ?_, ?_⟩
          · rw [count_countedIn_snoc_self hevent, hrequests, RequestPhase.requests_after hafter]
          · rw [count_countedIn_snoc_self hevent, count_countedIn_snoc_self hevent,
              RequestPhase.outcomes_after hafter, ← houtcomes]
            omega
          · dsimp only
            rw [thread_set_self ht]
            exact hobeys
        · refine ⟨phase, ?_, ?_, ?_⟩
          · rw [count_countedIn_snoc_other hevent hj, hrequests]
          · rw [count_countedIn_snoc_other hevent hj, count_countedIn_snoc_other hevent hj,
              houtcomes]
          · dsimp only
            rw [List.getElem?_set_ne (Ne.symm hj)]
            exact hthread

namespace Accounted

variable {trace first second third : List OutcomeTransition} {s : State}

theorem count_bounds (h : Accounted trace s) (i : Nat) :
    (countedIn .rpcRequest trace).count i ≤ 1 ∧
    (countedIn .rpcSuccess trace).count i + (countedIn .rpcError trace).count i ≤
      (countedIn .rpcRequest trace).count i := by
  obtain ⟨phase, hrequests, houtcomes, -⟩ := h.phases i
  rw [hrequests, houtcomes]
  refine ⟨?_, phase.outcomes_le_requests⟩
  cases phase <;> decide

theorem card_begun (h : Accounted (first ++ second) s) :
    (begun first).card = (countedIn .rpcRequest first).length := by
  apply List.toFinset_card_of_nodup
  rw [List.nodup_iff_count_le_one]
  intro i
  have hbound := (h.count_bounds i).1
  rw [countedIn_append, List.count_append] at hbound
  omega

theorem count_seen (h : Accounted (first ++ second ++ third) s) (i : Nat) :
    (countedIn .rpcSuccess (first ++ second) ++
      countedIn .rpcError (first ++ second ++ third)).count i ≤
        (countedIn .rpcRequest (first ++ second ++ third)).count i := by
  have hbound := (h.count_bounds i).2
  rw [countedIn_append (first ++ second), List.count_append] at hbound
  rw [List.count_append]
  omega

theorem card_seen (h : Accounted (first ++ second ++ third) s) :
    (seen first second third).card = (countedIn .rpcSuccess (first ++ second)).length +
      (countedIn .rpcError (first ++ second ++ third)).length := by
  rw [seen, List.toFinset_card_of_nodup, List.length_append]
  rw [List.nodup_iff_count_le_one]
  intro i
  exact (h.count_seen i).trans (h.count_bounds i).1

/-- A request is counted before its outcome is. -/
theorem seen_subset_begun (h : Accounted (first ++ second ++ third) s) :
    seen first second third ⊆ begun (first ++ second ++ third) := by
  intro i hi
  rw [seen, List.mem_toFinset, ← List.count_pos_iff] at hi
  rw [begun, List.mem_toFinset, ← List.count_pos_iff]
  exact hi.trans_le (h.count_seen i)

end Accounted

/-! ## Loads -/

/-- What a thread inside `snapshot` has loaded, and when. -/
def Thread.LoadedIn (i : Nat) (trace : List OutcomeTransition) : Thread → Prop
  | .running _ => True
  | .loadedRequests requests _ => ∃ first second, trace = first ++ second ∧
      Begins i .loadsRequests second ∧ requests = (countedIn .rpcRequest first).length
  | .loadedSuccess requests success _ => ∃ first second third, trace = first ++ second ++ third ∧
      Begins i .loadsRequests second ∧ Begins i .loadsSuccess third ∧
      requests = (countedIn .rpcRequest first).length ∧
      success = (countedIn .rpcSuccess (first ++ second)).length

section Loads

variable {trace : List OutcomeTransition} {τ : OutcomeTransition} {i : Nat} {event : Event}
  {t t' : Thread}

theorem begins_singleton (h : eventOf τ = some (i, event)) : Begins i event [τ] :=
  ⟨τ, [], rfl, h, fun _ hmem => absurd hmem List.not_mem_nil⟩

theorem Begins.snoc {part : List OutcomeTransition} (h : Begins i event part)
    (hτ : ∀ event', eventOf τ ≠ some (i, event')) : Begins i event (part ++ [τ]) := by
  obtain ⟨first, rest, rfl, hfirst, hidle⟩ := h
  refine ⟨first, rest ++ [τ], rfl, hfirst, fun τ' hmem => ?_⟩
  rcases List.mem_append.mp hmem with hrest | hlast
  · exact hidle τ' hrest
  · rw [List.mem_singleton.mp hlast]
    exact hτ

/-- A step of another thread. -/
theorem Thread.LoadedIn.snoc (h : t.LoadedIn i trace)
    (hτ : ∀ event', eventOf τ ≠ some (i, event')) : t.LoadedIn i (trace ++ [τ]) := by
  cases t with
  | running program => trivial
  | loadedRequests requests next =>
      obtain ⟨first, second, rfl, hsecond, hrequests⟩ := h
      exact ⟨first, second ++ [τ], List.append_assoc _ _ _, hsecond.snoc hτ, hrequests⟩
  | loadedSuccess requests success next =>
      obtain ⟨first, second, third, rfl, hsecond, hthird, hrequests, hsuccess⟩ := h
      exact ⟨first, second, third ++ [τ], List.append_assoc _ _ _, hsecond, hthird.snoc hτ,
        hrequests, hsuccess⟩

/-- A step of the thread itself. -/
theorem Thread.LoadedIn.advance {s : State} {replies : Replies} (haccounted : Accounted trace s)
    (h : t.LoadedIn i trace) (hadvance : t.advance s.counters replies = some (event, t'))
    (hτ : eventOf τ = some (i, event)) : t'.LoadedIn i (trace ++ [τ]) := by
  cases t with
  | running program =>
      cases program with
      | done => cases hadvance
      | call op next =>
          cases op with
          | snapshot =>
              cases hadvance
              exact ⟨trace, [τ], rfl, begins_singleton hτ, haccounted.requests⟩
          | _ =>
              cases hadvance
              trivial
  | loadedRequests requests next =>
      cases hadvance
      obtain ⟨first, second, rfl, hsecond, hrequests⟩ := h
      exact ⟨first, second, [τ], rfl, hsecond, begins_singleton hτ, hrequests,
        haccounted.success⟩
  | loadedSuccess requests success next =>
      cases hadvance
      trivial

end Loads

/-! ## Whole runs -/

section Runs

variable {pf d codec} {trace : List OutcomeTransition} {s : State}

theorem accounted_of_run (hchain : d.interceptors = makeDefaultRpcInterceptorChain)
    (hrun : Run (step pf d codec) State.built trace s) : Accounted trace s := by
  apply hrun.history_invariant (P := Accounted)
  · exact accounted_built
  · intro earlier τ _ _ hstep haccounted
    exact haccounted.snoc (moves_of_step hchain hstep)

theorem loadedIn_of_run (hchain : d.interceptors = makeDefaultRpcInterceptorChain)
    (hrun : Run (step pf d codec) State.built trace s) :
    ∀ (i : Nat) (t : Thread), s.threads[i]? = some t → t.LoadedIn i trace := by
  apply hrun.history_invariant
    (P := fun (trace : List OutcomeTransition) (s : State) =>
      ∀ (i : Nat) (t : Thread), s.threads[i]? = some t → t.LoadedIn i trace)
  · intro i t ht
    cases ht
  · intro earlier τ _ hearlier hstep hloaded j u hu
    have hmoves := moves_of_step hchain hstep
    generalize hevent : eventOf τ = moved at hmoves
    generalize τ.post = post at hmoves hu
    cases hmoves with
    | started program _ =>
        have hnot : ∀ event, eventOf τ ≠ some (j, event) := by simp [hevent]
        rcases thread_concat_cases τ.pre.threads j (.running program) with hold | ⟨-, -, hnew⟩
        · exact (hloaded j u (hold.symm.trans hu)).snoc hnot
        · obtain rfl : Thread.running program = u := Option.some.inj (hnew.symm.trans hu)
          trivial
    | advanced i replies t t' event ht hadvance =>
        rcases thread_of_set hu with ⟨rfl, rfl⟩ | ⟨hne, hother⟩
        · exact (hloaded j t ht).advance (accounted_of_run hchain hearlier) hadvance hevent
        · refine (hloaded j u hother).snoc ?_
          intro event' heq
          rw [hevent, Option.some.injEq, Prod.mk.injEq] at heq
          exact hne heq.1.symm

/-- The loads of a snapshot. -/
theorem loads_of_snapshot {i : Nat} {t t' : Thread} {replies : Replies}
    {snapshot : MetricsSnapshot} (haccounted : Accounted trace s) (hloaded : t.LoadedIn i trace)
    (hadvance : t.advance s.counters replies = some (.loadsError snapshot, t')) :
    ∃ first second third, trace = first ++ second ++ third ∧
      Begins i .loadsRequests second ∧ Begins i .loadsSuccess third ∧
      snapshot.rpcRequestsTotal = (countedIn .rpcRequest first).length ∧
      snapshot.rpcSuccessTotal = (countedIn .rpcSuccess (first ++ second)).length ∧
      snapshot.rpcErrorTotal = (countedIn .rpcError (first ++ second ++ third)).length := by
  cases t with
  | running program =>
      cases program with
      | done => cases hadvance
      | call op next => cases op <;> cases hadvance
  | loadedRequests requests next => cases hadvance
  | loadedSuccess requests success next =>
      cases hadvance
      obtain ⟨first, second, third, rfl, hsecond, hthird, hrequests, hsuccess⟩ := hloaded
      exact ⟨first, second, third, rfl, hsecond, hthird, hrequests, hsuccess, haccounted.error⟩

end Runs

/-! ## Failing requests -/

/-- Nothing is found anywhere. -/
def noReplies : Replies
  | .db _ => {}
  | .listTasks _ => ⟨[], 0⟩
  | .listHistory _ => ⟨[], 0⟩
  | .discoverServices _ => []
  | .cancelRegistered _ => false
  | .hasHandler _ => false
  | .execute _ _ _ => .error none
  | .callWorker _ _ => .notSerialized
  | .snapshot => {}
  | .count _ => ()
  | .clock => 0
  | .steadyClock => 0
  | .uuid => ""

/-- The steps of a node with the default interceptors. -/
abbrev stepCombined : State → Action → Option State :=
  step utcPlatform (guardedDispatcher .combined) tokenlessCodec

/-- A frame with an unknown serial id is answered with an error. -/
theorem request_unknown :
    request utcPlatform (guardedDispatcher .combined) tokenlessCodec [] 0 =
      .call (.count .rpcRequest) fun _ => .call (.count .rpcError) fun _ => .done () := rfl

/-- A step of the thread started last. -/
theorem stepCombined_last {counters : RpcCounters} {threads : List Thread} {t t' : Thread}
    {event : Event} (h : t.advance counters noReplies = some (event, t')) :
    stepCombined ⟨counters, threads ++ [t]⟩ (.advance threads.length noReplies) =
      some ⟨event.apply counters, threads ++ [t']⟩ := by
  simp [step, h]

/-- `n` requests have come and failed. -/
def State.failing (s : State) (n : Nat) : State where
  counters := ⟨s.counters.requests + n, s.counters.success, s.counters.error + n⟩
  threads := s.threads ++ List.replicate n (.running (.done ()))

theorem run_failing (s : State) (n : Nat) : ∃ trace, Run stepCombined s trace (s.failing n) := by
  induction n with
  | zero =>
      have hzero : s.failing 0 = s := by simp [State.failing]
      rw [hzero]
      exact ⟨[], Run.nil⟩
  | succ n ih =>
      obtain ⟨trace, hrun⟩ := ih
      have hsucc : s.failing (n + 1) =
          ⟨((s.failing n).counters.add .rpcRequest).add .rpcError,
            (s.failing n).threads ++ [.running (.done ())]⟩ := by
        simp only [State.failing, RpcCounters.add, List.replicate_succ', List.append_assoc]
        rfl
      rw [hsucc]
      have hdispatch : stepCombined (s.failing n) (.dispatch [] 0) =
          some ⟨(s.failing n).counters, (s.failing n).threads ++
            [.running (request utcPlatform (guardedDispatcher .combined) tokenlessCodec [] 0)]⟩ :=
        rfl
      rw [request_unknown] at hdispatch
      have herror : Thread.advance ((s.failing n).counters.add .rpcRequest) noReplies
          (.running (.call (.count .rpcError) fun _ => .done ())) =
            some (.counts .rpcError, .running (.done ())) := rfl
      exact ⟨_, ((hrun.snoc hdispatch).snoc (stepCombined_last rfl)).snoc
        (stepCombined_last herror)⟩

/-- A step of the thread started first. -/
theorem stepCombined_first {counters : RpcCounters} {threads : List Thread} {t t' : Thread}
    {event : Event} (h : t.advance counters noReplies = some (event, t')) :
    stepCombined ⟨counters, t :: threads⟩ (.advance 0 noReplies) =
      some ⟨event.apply counters, t' :: threads⟩ := by
  simp [step, h]

/-! ## The guarantee -/

/-- With the default interceptors, a snapshot completed in any run has the
requests begun before its first load and the outcomes counted before the two
others.  Outcomes belong to different requests, all begun by then.  They are at
most as many as the requests if and only if those whose request was not yet
counted at the first load (`seen \ begun`) are at most as many as the requests
counted then and not seen to end (`begun \ seen`); then the percentage of errors
is at most 100, in every alert as well. -/
theorem outcomes_le_requests_iff {pf : Platform} {d : RpcDispatcher} {codec : Codec}
    (hchain : d.interceptors = makeDefaultRpcInterceptorChain)
    {earlier later : List OutcomeTransition} {τ : OutcomeTransition} {s : State}
    (hrun : Run (step pf d codec) State.built (earlier ++ τ :: later) s)
    {i : Nat} {snapshot : MetricsSnapshot} (hsnapshot : eventOf τ = some (i, .loadsError snapshot)) :
    ∃ first second third, earlier = first ++ second ++ third ∧
      Begins i .loadsRequests second ∧ Begins i .loadsSuccess third ∧
      snapshot.rpcRequestsTotal = (begun first).card ∧
      snapshot.rpcSuccessTotal + snapshot.rpcErrorTotal = (seen first second third).card ∧
      seen first second third ⊆ begun earlier ∧
      (snapshot.rpcSuccessTotal + snapshot.rpcErrorTotal ≤ snapshot.rpcRequestsTotal ↔
        (seen first second third \ begun first).card ≤
          (begun first \ seen first second third).card) ∧
      (snapshot.rpcSuccessTotal + snapshot.rpcErrorTotal ≤ snapshot.rpcRequestsTotal →
        percent snapshot.rpcErrorTotal snapshot.rpcRequestsTotal ≤ 100 ∧
        ∀ config, ∀ alert ∈ evaluate snapshot config,
          alert.name = "rpc_error_rate_high" → alert.observed ≤ 100) := by
  obtain ⟨hearlier, hstep, -⟩ := hrun.split
  have haccounted := accounted_of_run hchain hearlier
  have hloaded := loadedIn_of_run hchain hearlier
  have hmoves := moves_of_step hchain hstep
  rw [hsnapshot] at hmoves
  generalize τ.post = post at hmoves
  cases hmoves with
  | advanced i replies t t' event ht hadvance =>
      obtain ⟨first, second, third, rfl, hsecond, hthird, hrequests, hsuccess, herror⟩ :=
        loads_of_snapshot haccounted (hloaded i t ht) hadvance
      have hbegun : snapshot.rpcRequestsTotal = (begun first).card := by
        rw [List.append_assoc] at haccounted
        rw [hrequests, haccounted.card_begun]
      have hseen : snapshot.rpcSuccessTotal + snapshot.rpcErrorTotal =
          (seen first second third).card := by
        rw [hsuccess, herror, haccounted.card_seen]
      refine ⟨first, second, third, rfl, hsecond, hthird, hbegun, hseen,
        haccounted.seen_subset_begun, ?_, fun hle => ?_⟩
      · rw [hseen, hbegun]
        exact Finset.card_sdiff_le_card_sdiff_iff.symm
      · have hpercent : percent snapshot.rpcErrorTotal snapshot.rpcRequestsTotal ≤ 100 :=
          percent_le_hundred (by omega)
        refine ⟨hpercent, fun config alert hmem hname => ?_⟩
        rw [((mem_evaluate_rpcErrorRate hname).mp hmem).2.2]
        exact hpercent

/-- The exporter takes its snapshot after a request that has failed. -/
theorem outcomes_le_requests_iff_failed :
    ∃ earlier τ s snapshot, Run stepCombined State.built (earlier ++ [τ]) s ∧
      eventOf τ = some (0, .loadsError snapshot) ∧
      snapshot.rpcRequestsTotal = 1 ∧ snapshot.rpcSuccessTotal + snapshot.rpcErrorTotal = 1 ∧
      ∃ first second third, earlier = first ++ second ++ third ∧
        Begins 0 .loadsRequests second ∧ Begins 0 .loadsSuccess third ∧
        (seen first second third \ begun first).card ≤
          (begun first \ seen first second third).card ∧
        percent snapshot.rpcErrorTotal snapshot.rpcRequestsTotal ≤ 100 := by
  have hscrape : stepCombined State.built .scrape = some ⟨{}, [.running exporter]⟩ := rfl
  obtain ⟨one, hone⟩ := run_failing ⟨{}, [.running exporter]⟩ 1
  have hrequests := ((Run.nil.snoc hscrape).append hone).snoc (stepCombined_first rfl)
  have hsuccess := hrequests.snoc (stepCombined_first rfl)
  have herror := hsuccess.snoc (stepCombined_first rfl)
  obtain ⟨first, second, third, hcut, hsecond, hthird, -, -, -, hiff, hpercent⟩ :=
    outcomes_le_requests_iff rfl herror rfl
  refine ⟨_, _, _, _, herror, rfl, rfl, rfl, first, second, third, hcut, hsecond, hthird, ?_, ?_⟩
  · exact hiff.mp (by decide)
  · exact (hpercent (by decide)).1

/-- A hundred requests fail, the exporter loads their number, and one more
request fails before the exporter loads the errors: the snapshot has 101 errors
in 100 requests, and the alert that the default rules derive from it reports
101 percent. -/
theorem errors_exceed_requests :
    (guardedDispatcher .combined).interceptors = makeDefaultRpcInterceptorChain ∧
    ∃ earlier τ s snapshot, Run stepCombined State.built (earlier ++ [τ]) s ∧
      eventOf τ = some (0, .loadsError snapshot) ∧
      snapshot.rpcRequestsTotal = 100 ∧ snapshot.rpcSuccessTotal = 0 ∧
      snapshot.rpcErrorTotal = 101 ∧
      ¬snapshot.rpcSuccessTotal + snapshot.rpcErrorTotal ≤ snapshot.rpcRequestsTotal ∧
      ⟨"rpc_error_rate_high", "warning", "RPC error rate is above threshold", 101, 5⟩ ∈
        evaluate snapshot {} := by
  refine ⟨rfl, ?_⟩
  have hscrape : stepCombined State.built .scrape = some ⟨{}, [.running exporter]⟩ := rfl
  obtain ⟨hundred, hhundred⟩ := run_failing ⟨{}, [.running exporter]⟩ 100
  have hrequests := ((Run.nil.snoc hscrape).append hhundred).snoc (stepCombined_first rfl)
  obtain ⟨one, hone⟩ := run_failing
    ⟨⟨100, 0, 100⟩, .loadedRequests 100 (fun _ => .done ()) ::
      List.replicate 100 (.running (.done ()))⟩ 1
  have hsuccess := (hrequests.append hone).snoc (stepCombined_first rfl)
  have herror := hsuccess.snoc (stepCombined_first rfl)
  refine ⟨_, _, _, _, herror, rfl, rfl, rfl, rfl, by decide, ?_⟩
  rw [mem_evaluate_rpcErrorRate rfl]
  decide +kernel

end RpcOutcomes
end Corpcron
