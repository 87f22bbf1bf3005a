import Corpcron.Lib.ResourcePool
import Corpcron.Lib.Threads
import Corpcron.Rpc.CandidateOrder
import Corpcron.Rpc.ConnectionReuse

/-!
# The clients of a pool

`RpcClientPool` counts the idle clients of an endpoint; here they are objects.
A client is made by `borrow` when no idle one is left, used by one call of
`RpcClient::call`, and put back or destroyed by `release`.  The objects live in
`heap` and are named by their position in it, as a `unique_ptr` names them; what
happens to the names is a `ResourcePool`.

A call of `RpcClient::call` is two steps, so that other calls of the pool can
come between sending the request and reading the response.  A response is known
only by its position on the connection.  That each call reads its own one
therefore rests on two things: nobody else uses the client in between, and the
client was quiet when it was borrowed.
-/

namespace Corpcron
namespace PooledClients

open Lib
open RpcClientPool (CallPc Options ClientResult EndpointState)

/-! ## The pool with its clients -/

/-- A client and the endpoint it was made for. -/
structure PooledClient where
  endpoint : String
  client : RpcClient := {}

/-- The request of a call of the pool and its output parameters. -/
structure CallData where
  serialId : UInt32
  requestData : List UInt8
  responseSerialId : UInt32 := 0
  responseData : List UInt8 := []

structure State where
  pool : RpcClientPool.State
  /-- `idle_clients` of each endpoint, the last one first, and the client each
  call has borrowed. -/
  clients : ResourcePool String Nat Nat := .empty
  /-- All clients made so far. -/
  heap : List PooledClient := []
  data : List CallData := []
  /-- The exchange of a call that has sent its request and not yet read the
  response. -/
  sent : Nat → Option UnaryExchange := fun _ => none

inductive Action where
  | tick (ms : Nat)
  | call (endpoints : List String) (serialId : UInt32) (requestData : List UInt8)
  /-- A step of call number `i` outside of `RpcClient::call`. -/
  | advance (i : Nat) (inp : RpcClientPool.Input)
  /-- Call number `i` connects if it has to and sends its request. -/
  | send (i : Nat) (exchange : UnaryExchange)
  /-- Call number `i` reads the response. -/
  | receive (i : Nat)

abbrev PooledTransition := Transition State Action

/-- What the pool looks at after `RpcClient::call`. -/
def clientResult (ok : Bool) (client : RpcClient) : ClientResult :=
  ⟨ok, client.lastError, client.lastStatus⟩

namespace State

def built (now : Nat) : State := { pool := { now := now } }

/-- `borrow` and `release`; elsewhere the clients stay where they are. -/
def moveClient (s : State) (options : Options) (i : Nat) : CallPc → State
  | .borrowing endpoint _ =>
      match s.clients.take endpoint i with
      | some clients => { s with clients := clients }
      | none =>
          { s with
            clients := s.clients.lend i s.heap.length
            heap := s.heap ++ [{ endpoint := endpoint }] }
  | .releasing endpoint result _ =>
      if result.ok ∧ (s.clients.free endpoint).length < options.maxIdlePerEndpoint then
        { s with clients := s.clients.giveBack endpoint i }
      else { s with clients := s.clients.drop i }
  | _ => s

/-- The step of the pool that goes with a step here. -/
def advancePool (s : State) (options : Options) (i : Nat) (inp : RpcClientPool.Input) :
    Option State :=
  (RpcClientPool.step options s.pool (.advance i inp)).map fun pool => { s with pool := pool }

/-- `RpcClient::call` has ended with `client`. -/
def finishCall (s : State) (options : Options) (i ptr : Nat) (c : PooledClient) (d : CallData)
    (ok : Bool) (client : RpcClient) (serialId : UInt32) (payload : List UInt8) : Option State :=
  State.advancePool
    { s with
      heap := s.heap.set ptr { c with client := client }
      data := s.data.set i { d with responseSerialId := serialId, responseData := payload }
      sent := Function.update s.sent i none }
    options i { client := clientResult ok client }

/-- The part of `RpcClient::call` up to the request. -/
def send (s : State) (options : Options) (i : Nat) (exchange : UnaryExchange) (ptr : Nat)
    (c : PooledClient) (d : CallData) : Option State :=
  match c.client.sendRequest d.serialId d.requestData exchange.toCallInput with
  | .error client => s.finishCall options i ptr c d false client 0 []
  | .ok arrivals =>
      some { s with
        heap := s.heap.set ptr { c with client := { socket := some arrivals } }
        sent := Function.update s.sent i (some exchange) }

/-- The part of `RpcClient::call` after the request. -/
def receive (s : State) (options : Options) (i ptr : Nat) (c : PooledClient) (d : CallData) :
    Option State :=
  match c.client.socket with
  | none => none
  | some arrivals =>
      match readResponse arrivals with
      | (.error e, _) => s.finishCall options i ptr c d false (.failed e.ofCall) 0 []
      | (.ok response, rest) =>
          s.finishCall options i ptr c d true { socket := some rest } response.serialId
            response.payload

end State

def isCalling : CallPc → Bool
  | .calling _ _ => true
  | _ => false

def step (options : Options) (s : State) : Action → Option State
  | .tick ms => some { s with pool := { s.pool with now := s.pool.now + ms } }
  | .call endpoints serialId requestData =>
      (RpcClientPool.step options s.pool (.call endpoints)).map fun pool =>
        { s with pool := pool, data := s.data ++ [⟨serialId, requestData, 0, []⟩] }
  | .advance i inp =>
      match s.pool.calls[i]? with
      | none => none
      | some pc =>
          if isCalling pc then none else (s.moveClient options i pc).advancePool options i inp
  | .send i exchange =>
      match s.pool.calls[i]?, s.sent i, s.clients.held i, s.data[i]? with
      | some (.calling _ _), none, some ptr, some d =>
          (s.heap[ptr]?).bind fun c => s.send options i exchange ptr c d
      | _, _, _, _ => none
  | .receive i =>
      match s.pool.calls[i]?, s.sent i, s.clients.held i, s.data[i]? with
      | some (.calling _ _), some _, some ptr, some d =>
          (s.heap[ptr]?).bind fun c => s.receive options i ptr c d
      | _, _, _, _ => none

/-! ## What a step of a call does to the clients -/

/-- The endpoint whose client a call has in hand. -/
def uses? : CallPc → Option String
  | .calling endpoint _ => some endpoint
  | .releasing endpoint _ _ => some endpoint
  | _ => none

/-- The endpoint that has answered the call. -/
def answeredBy? : CallPc → Option String
  | .releasing endpoint result _ => if result.ok then some endpoint else none
  | .recording endpoint result _ => if result.ok then some endpoint else none
  | .returned result => if result.ok then some result.selectedEndpoint else none
  | _ => none

/-- The steps in which clients are moved or used. -/
def touchesClients : CallPc → Bool
  | .borrowing _ _ => true
  | .calling _ _ => true
  | .releasing _ _ _ => true
  | _ => false

section StepCall

variable {options : Options} {p : RpcClientPool.State} {inp : RpcClientPool.Input}
  {endpoints' : String → EndpointState} {pc pc' : CallPc}

theorem idle_update {f : String → EndpointState} {endpoint e : String} {state : EndpointState}
    (h : state.idleClients = (f endpoint).idleClients) :
    (Function.update f endpoint state e).idleClients = (f e).idleClients := by
  by_cases he : e = endpoint
  · rw [he, Function.update_self, h]
  · rw [Function.update_of_ne he]

theorem idle_of_record {state state' : EndpointState} {now : Nat} {success : Bool}
    (h : state.record options now success = some state') :
    state'.idleClients = state.idleClients := by
  unfold EndpointState.record at h
  split at h
  · obtain rfl := Option.some.inj h
    rfl
  · unfold EndpointState.recordFailure at h
    dsimp only at h
    split at h
    · cases h
    · split at h <;> obtain rfl := Option.some.inj h <;> rfl

theorem idle_of_reserve {state state' : EndpointState} {now : Nat}
    (h : state.reserveHalfOpenProbe now = some state') :
    state'.idleClients = state.idleClients := by
  unfold EndpointState.reserveHalfOpenProbe at h
  split at h
  · cases h
  · obtain rfl := Option.some.inj h
    rfl

/-- A step that has nothing to do with clients. -/
theorem stepCall_other (hpc : touchesClients pc = false)
    (h : RpcClientPool.stepCall options p inp pc = some (endpoints', pc')) :
    uses? pc = none ∧ uses? pc' = none ∧ answeredBy? pc' = answeredBy? pc ∧
      ∀ e, (endpoints' e).idleClients = (p.endpoints e).idleClients := by
  cases pc with
  | ordering now pending ordered =>
      cases pending with
      | nil =>
          simp only [RpcClientPool.stepCall] at h
          split at h <;> cases h <;> exact ⟨rfl, rfl, rfl, fun _ => rfl⟩
      | cons endpoint pending =>
          simp only [RpcClientPool.stepCall] at h
          split at h <;> cases h <;> exact ⟨rfl, rfl, rfl, fun _ => rfl⟩
  | iterating l =>
      obtain ⟨candidates, lastError⟩ := l
      cases candidates with
      | nil =>
          cases h
          exact ⟨rfl, rfl, rfl, fun _ => rfl⟩
      | cons endpoint rest =>
          simp only [RpcClientPool.stepCall] at h
          repeat' split at h
          all_goals
            cases h
            exact ⟨rfl, rfl, rfl, fun _ => rfl⟩
  | failing endpoint l =>
      obtain ⟨state, hstate, hnext⟩ := Option.map_eq_some_iff.mp h
      have hrecord : (p.endpoints endpoint).record options p.now false = some state := hstate
      cases hnext
      exact ⟨rfl, rfl, rfl, fun e => idle_update (idle_of_record hrecord)⟩
  | reserving endpoint now l =>
      simp only [RpcClientPool.stepCall] at h
      split at h
      next state hstate =>
        cases h
        exact ⟨rfl, rfl, rfl, fun e => idle_update (idle_of_reserve hstate)⟩
      next =>
        cases h
        exact ⟨rfl, rfl, rfl, fun _ => rfl⟩
  | probing endpoint l =>
      cases h
      exact ⟨rfl, rfl, rfl, fun _ => rfl⟩
  | finishing endpoint success l =>
      obtain ⟨state, hstate, hnext⟩ := Option.map_eq_some_iff.mp h
      cases hnext
      refine ⟨rfl, ?_, ?_, fun e => idle_update (idle_of_record hstate)⟩ <;> cases success <;> rfl
  | gating endpoint now l =>
      simp only [RpcClientPool.stepCall] at h
      split at h <;> cases h <;> exact ⟨rfl, rfl, rfl, fun _ => rfl⟩
  | recording endpoint result l =>
      obtain ⟨state, hstate, hnext⟩ := Option.map_eq_some_iff.mp h
      cases hnext
      refine ⟨rfl, ?_, ?_, fun e => idle_update (idle_of_record hstate)⟩
      all_goals
        dsimp only
        by_cases hok : result.ok = true
        · simp [hok, uses?, answeredBy?]
        · by_cases hstop : result.status = .canceled ∨ result.status = .deadlineExceeded <;>
            simp [hok, hstop, uses?, answeredBy?]
  | borrowing endpoint l => cases hpc
  | calling endpoint l => cases hpc
  | releasing endpoint result l => cases hpc
  | returned result => cases h

end StepCall

/-! ## What a step can do -/

/-- Call number `i` has come to `pc'`. -/
def State.goes (s : State) (i : Nat) (endpoints' : String → EndpointState) (pc' : CallPc) : State :=
  { s with pool := { s.pool with endpoints := endpoints', calls := s.pool.calls.set i pc' } }

/-- How `RpcClient::call` of call number `i` ends in a step. -/
inductive Ended (s : State) (i : Nat) (c : PooledClient) (d : CallData) :
    Action → Bool → RpcClient → UInt32 → List UInt8 → Prop where
  | unsent (exchange : UnaryExchange) (client : RpcClient) (hsent : s.sent i = none)
      (hsend : c.client.sendRequest d.serialId d.requestData exchange.toCallInput = .error client) :
      Ended s i c d (.send i exchange) false client 0 []
  | unread (exchange : UnaryExchange) (report : RpcCallStatus × String)
      (hsent : s.sent i = some exchange) :
      Ended s i c d (.receive i) false (.failed report) 0 []
  | read (exchange : UnaryExchange) (arrivals rest : List Arrival) (response : RpcResponse)
      (hsent : s.sent i = some exchange) (hsocket : c.client.socket = some arrivals)
      (hread : readResponse arrivals = (.ok response, rest)) :
      Ended s i c d (.receive i) true { socket := some rest } response.serialId response.payload

/-- The cases of a step. -/
inductive Moves (options : Options) (s : State) : Action → State → Prop where
  | tick (ms : Nat) :
      Moves options s (.tick ms) { s with pool := { s.pool with now := s.pool.now + ms } }
  | enters (endpoints : List String) (serialId : UInt32) (requestData : List UInt8)
      (pool : RpcClientPool.State) (pc : CallPc) (hcalls : pool.calls = s.pool.calls ++ [pc])
      (hendpoints : pool.endpoints = s.pool.endpoints) (huses : uses? pc = none)
      (hanswered : answeredBy? pc = none) :
      Moves options s (.call endpoints serialId requestData)
        { s with pool := pool, data := s.data ++ [⟨serialId, requestData, 0, []⟩] }
  | other (i : Nat) (inp : RpcClientPool.Input) (pc pc' : CallPc)
      (endpoints' : String → EndpointState) (hpc : s.pool.calls[i]? = some pc)
      (huses : uses? pc = none) (huses' : uses? pc' = none)
      (hanswered : answeredBy? pc' = answeredBy? pc)
      (hidle : ∀ e, (endpoints' e).idleClients = (s.pool.endpoints e).idleClients) :
      Moves options s (.advance i inp) (s.goes i endpoints' pc')
  | takes (i : Nat) (inp : RpcClientPool.Input) (e : String) (l : RpcClientPool.Loop)
      (clients : ResourcePool String Nat Nat) (hpc : s.pool.calls[i]? = some (.borrowing e l))
      (htake : s.clients.take e i = some clients) :
      Moves options s (.advance i inp)
        { s.goes i (Function.update s.pool.endpoints e (s.pool.endpoints e).borrow)
            (.calling e l) with clients := clients }
  | makes (i : Nat) (inp : RpcClientPool.Input) (e : String) (l : RpcClientPool.Loop)
      (hpc : s.pool.calls[i]? = some (.borrowing e l)) (hfree : s.clients.free e = []) :
      Moves options s (.advance i inp)
        { s.goes i (Function.update s.pool.endpoints e (s.pool.endpoints e).borrow)
            (.calling e l) with
          clients := s.clients.lend i s.heap.length
          heap := s.heap ++ [{ endpoint := e }] }
  | releases (i : Nat) (inp : RpcClientPool.Input) (e : String) (result : ClientResult)
      (l : RpcClientPool.Loop) (hpc : s.pool.calls[i]? = some (.releasing e result l)) :
      Moves options s (.advance i inp)
        { s.goes i (Function.update s.pool.endpoints e
              ((s.pool.endpoints e).release options result.ok)) (.recording e result l) with
          clients :=
            if result.ok ∧ (s.clients.free e).length < options.maxIdlePerEndpoint then
              s.clients.giveBack e i
            else s.clients.drop i }
  | sends (i : Nat) (exchange : UnaryExchange) (e : String) (l : RpcClientPool.Loop) (ptr : Nat)
      (c : PooledClient) (d : CallData) (arrivals : List Arrival)
      (hpc : s.pool.calls[i]? = some (.calling e l)) (hheld : s.clients.held i = some ptr)
      (hheap : s.heap[ptr]? = some c) (hsent : s.sent i = none)
      (hsend : c.client.sendRequest d.serialId d.requestData exchange.toCallInput = .ok arrivals) :
      Moves options s (.send i exchange)
        { s with
          heap := s.heap.set ptr { c with client := { socket := some arrivals } }
          sent := Function.update s.sent i (some exchange) }
  | ends (a : Action) (i : Nat) (e : String) (l : RpcClientPool.Loop) (ptr : Nat)
      (c : PooledClient) (d : CallData) (ok : Bool) (client : RpcClient) (serialId : UInt32)
      (payload : List UInt8) (hpc : s.pool.calls[i]? = some (.calling e l))
      (hheld : s.clients.held i = some ptr) (hheap : s.heap[ptr]? = some c)
      (hdata : s.data[i]? = some d) (hended : Ended s i c d a ok client serialId payload) :
      Moves options s a
        { s.goes i s.pool.endpoints (.releasing e (clientResult ok client) l) with
          heap := s.heap.set ptr { c with client := client }
          data := s.data.set i { d with responseSerialId := serialId, responseData := payload }
          sent := Function.update s.sent i none }

section Inversion

variable {options : Options} {s s' : State}

theorem advancePool_eq {i : Nat} {inp : RpcClientPool.Input} {pc : CallPc}
    (h : s.advancePool options i inp = some s') (hpc : s.pool.calls[i]? = some pc) :
    ∃ endpoints' pc', RpcClientPool.stepCall options s.pool inp pc = some (endpoints', pc') ∧
      s' = s.goes i endpoints' pc' := by
  obtain ⟨pool, hpool, rfl⟩ := Option.map_eq_some_iff.mp h
  obtain ⟨pc₀, endpoints', pc', hpc₀, hstep, rfl⟩ := RpcClientPool.advance_cases hpool
  rw [hpc, Option.some.injEq] at hpc₀
  subst hpc₀
  exact ⟨endpoints', pc', hstep, rfl⟩

theorem moves_of_finishCall {a : Action} {i ptr : Nat} {e : String} {l : RpcClientPool.Loop}
    {c : PooledClient} {d : CallData} {ok : Bool} {client : RpcClient} {serialId : UInt32}
    {payload : List UInt8} (hpc : s.pool.calls[i]? = some (.calling e l))
    (hheld : s.clients.held i = some ptr) (hheap : s.heap[ptr]? = some c)
    (hdata : s.data[i]? = some d) (hended : Ended s i c d a ok client serialId payload)
    (h : s.finishCall options i ptr c d ok client serialId payload = some s') :
    Moves options s a s' := by
  unfold State.finishCall at h
  obtain ⟨endpoints', pc', hstep, rfl⟩ := advancePool_eq h hpc
  obtain ⟨rfl, rfl⟩ := Prod.mk.inj (Option.some.inj hstep)
  exact .ends a i e l ptr c d ok client serialId payload hpc hheld hheap hdata hended

theorem moves_of_advance {i : Nat} {inp : RpcClientPool.Input}
    (h : step options s (.advance i inp) = some s') : Moves options s (.advance i inp) s' := by
  simp only [step] at h
  split at h
  · cases h
  rename_i pc hpc
  split at h
  · cases h
  rename_i hcalling
  cases htouch : touchesClients pc with
  | false =>
      have hsame : s.moveClient options i pc = s := by
        cases pc with
        | borrowing e l => cases htouch
        | releasing e result l => cases htouch
        | _ => rfl
      rw [hsame] at h
      obtain ⟨endpoints', pc', hstep, rfl⟩ := advancePool_eq h hpc
      obtain ⟨huses, huses', hanswered, hidle⟩ := stepCall_other htouch hstep
      exact .other i inp pc pc' endpoints' hpc huses huses' hanswered hidle
  | true =>
      cases pc with
      | borrowing e l =>
          simp only [State.moveClient] at h
          cases htake : s.clients.take e i with
          | some clients =>
              simp only [htake] at h
              obtain ⟨endpoints', pc', hstep, rfl⟩ := advancePool_eq h hpc
              obtain ⟨rfl, rfl⟩ := Prod.mk.inj (Option.some.inj hstep)
              exact .takes i inp e l clients hpc htake
          | none =>
              simp only [htake] at h
              obtain ⟨endpoints', pc', hstep, rfl⟩ := advancePool_eq h hpc
              obtain ⟨rfl, rfl⟩ := Prod.mk.inj (Option.some.inj hstep)
              exact .makes i inp e l hpc (ResourcePool.take_eq_none htake)
      | releasing e result l =>
          have hmove : s.moveClient options i (.releasing e result l) = { s with
              clients := if result.ok ∧
                  (s.clients.free e).length < options.maxIdlePerEndpoint then
                s.clients.giveBack e i else s.clients.drop i } := by
            simp only [State.moveClient]
            split <;> rfl
          rw [hmove] at h
          obtain ⟨endpoints', pc', hstep, rfl⟩ := advancePool_eq h hpc
          obtain ⟨rfl, rfl⟩ := Prod.mk.inj (Option.some.inj hstep)
          exact .releases i inp e result l hpc
      | calling e l => exact absurd rfl hcalling
      | _ => cases htouch

theorem moves_of_send {i : Nat} {exchange : UnaryExchange}
    (h : step options s (.send i exchange) = some s') : Moves options s (.send i exchange) s' := by
  simp only [step] at h
  split at h
  next e l ptr d hpc hsent hheld hdata =>
    obtain ⟨c, hheap, h⟩ := Option.bind_eq_some_iff.mp h
    unfold State.send at h
    cases hsend : c.client.sendRequest d.serialId d.requestData exchange.toCallInput with
    | error client =>
        simp only [hsend] at h
        exact moves_of_finishCall hpc hheld hheap hdata (.unsent exchange client hsent hsend) h
    | ok arrivals =>
        simp only [hsend, Option.some.injEq] at h
        subst h
        exact .sends i exchange e l ptr c d arrivals hpc hheld hheap hsent hsend
  next => cases h

theorem moves_of_receive {i : Nat} (h : step options s (.receive i) = some s') :
    Moves options s (.receive i) s' := by
  simp only [step] at h
  split at h
  next e l exchange ptr d hpc hsent hheld hdata =>
    obtain ⟨c, hheap, h⟩ := Option.bind_eq_some_iff.mp h
    unfold State.receive at h
    cases hsocket : c.client.socket with
    | none => simp [hsocket] at h
    | some arrivals =>
        simp only [hsocket] at h
        split at h
        next report rest hread =>
          exact moves_of_finishCall hpc hheld hheap hdata (.unread exchange _ hsent) h
        next response rest hread =>
          exact moves_of_finishCall hpc hheld hheap hdata
            (.read exchange arrivals rest response hsent hsocket hread) h
  next => cases h

theorem moves_of_step {a : Action} (h : step options s a = some s') : Moves options s a s' := by
  cases a with
  | tick ms =>
      obtain rfl := Option.some.inj h
      exact .tick ms
  | call endpoints serialId requestData =>
      obtain rfl := Option.some.inj h
      refine .enters endpoints serialId requestData _ (RpcClientPool.beginCall s.pool endpoints).2
        rfl rfl ?_ ?_ <;>
      · unfold RpcClientPool.beginCall
        dsimp only
        split <;> rfl
  | advance i inp => exact moves_of_advance h
  | send i exchange => exact moves_of_send h
  | receive i => exact moves_of_receive h

end Inversion

/-! ## Ownership -/

/-- A client fits the call that has it in hand. -/
def Serves (c : PooledClient) : CallPc → Prop
  | .calling endpoint _ => c.endpoint = endpoint
  | .releasing endpoint result _ =>
      c.endpoint = endpoint ∧ (result.ok = true → c.client.socket.isSome = true)
  | _ => False

theorem Serves.uses {c : PooledClient} {pc : CallPc} (h : Serves c pc) : uses? pc ≠ none := by
  cases pc with
  | calling endpoint l => simp [uses?]
  | releasing endpoint result l => simp [uses?]
  | _ => exact h.elim

/-- The idle clients of an endpoint are connected, as many as the pool counts,
and not too many. -/
structure Stocked (options : Options) (heap : List PooledClient) (e : String) (free : List Nat)
    (idle : Nat) : Prop where
  made : ∀ ptr ∈ free, ∃ c, heap[ptr]? = some c ∧ c.endpoint = e ∧ c.client.socket.isSome = true
  count : free.length = idle
  bounded : free.length ≤ options.maxIdlePerEndpoint

/-- A call holds a client where it has one in hand, and nowhere else. -/
def Fits (heap : List PooledClient) : Option CallPc → Option Nat → Prop
  | some pc, some ptr => ∃ c, heap[ptr]? = some c ∧ Serves c pc
  | some pc, none => uses? pc = none
  | none, held => held = none

/-- Every client is idle at its endpoint or in the hands of one call. -/
structure Owned (options : Options) (s : State) : Prop where
  exclusive : s.clients.Exclusive
  stocked : ∀ e, Stocked options s.heap e (s.clients.free e) (s.pool.endpoints e).idleClients
  fits : ∀ i, Fits s.heap s.pool.calls[i]? (s.clients.held i)

theorem owned_built (options : Options) (now : Nat) : Owned options (.built now) :=
  ⟨ResourcePool.exclusive_empty, fun _ => ⟨List.forall_mem_nil _, rfl, Nat.zero_le _⟩, fun _ => rfl⟩

section Ownership

variable {options : Options} {s s' : State} {i : Nat} {pc pc' : CallPc} {e : String}

theorem Stocked.mono {heap heap' : List PooledClient} {free : List Nat} {idle : Nat}
    (h : Stocked options heap e free idle)
    (hheap : ∀ ptr ∈ free, ∀ c, heap[ptr]? = some c → heap'[ptr]? = some c) :
    Stocked options heap' e free idle where
  made ptr hptr := by
    obtain ⟨c, hc, hmade⟩ := h.made ptr hptr
    exact ⟨c, hheap ptr hptr c hc, hmade⟩
  count := h.count
  bounded := h.bounded

theorem Fits.mono {heap heap' : List PooledClient} {pc? : Option CallPc} {held : Option Nat}
    (h : Fits heap pc? held)
    (hheap : ∀ ptr, held = some ptr → ∀ c, heap[ptr]? = some c → heap'[ptr]? = some c) :
    Fits heap' pc? held := by
  cases pc? with
  | none => exact h
  | some pc =>
      cases held with
      | none => exact h
      | some ptr =>
          obtain ⟨c, hc, hserves⟩ := h
          exact ⟨c, hheap ptr rfl c hc, hserves⟩

theorem Owned.serves (h : Owned options s) {ptr : Nat} (hpc : s.pool.calls[i]? = some pc)
    (hheld : s.clients.held i = some ptr) : ∃ c, s.heap[ptr]? = some c ∧ Serves c pc := by
  have hfits := h.fits i
  rw [hpc, hheld] at hfits
  exact hfits

/-- A call that has no client in hand holds none. -/
theorem Owned.not_held (h : Owned options s) (hpc : s.pool.calls[i]? = some pc)
    (huses : uses? pc = none) : s.clients.held i = none := by
  cases hheld : s.clients.held i with
  | none => rfl
  | some ptr =>
      obtain ⟨c, -, hserves⟩ := h.serves hpc hheld
      exact absurd huses hserves.uses

theorem Owned.held (h : Owned options s) (hpc : s.pool.calls[i]? = some pc)
    (huses : uses? pc ≠ none) :
    ∃ ptr c, s.clients.held i = some ptr ∧ s.heap[ptr]? = some c ∧ Serves c pc := by
  cases hheld : s.clients.held i with
  | none =>
      have hfits := h.fits i
      rw [hpc, hheld] at hfits
      exact absurd hfits huses
  | some ptr =>
      obtain ⟨c, hc, hserves⟩ := h.serves hpc hheld
      exact ⟨ptr, c, rfl, hc, hserves⟩

/-- A step concerns one call, the client it holds and the idle clients of one
endpoint. -/
theorem Owned.of_local (h : Owned options s) (hexclusive : s'.clients.Exclusive)
    (hheap : ∀ (ptr : Nat) (c : PooledClient), s.heap[ptr]? = some c →
      s.clients.held i ≠ some ptr → s'.heap[ptr]? = some c)
    (hfree : ∀ e', e' ≠ e → s'.clients.free e' = s.clients.free e' ∧
      (s'.pool.endpoints e').idleClients = (s.pool.endpoints e').idleClients)
    (hheld : ∀ j, j ≠ i → s'.clients.held j = s.clients.held j ∧
      s'.pool.calls[j]? = s.pool.calls[j]?)
    (hstocked : Stocked options s'.heap e (s'.clients.free e) (s'.pool.endpoints e).idleClients)
    (hfits : Fits s'.heap s'.pool.calls[i]? (s'.clients.held i)) : Owned options s' := by
  refine ⟨hexclusive, fun e' => ?_, fun j => ?_⟩
  · by_cases he : e' = e
    · rw [he]
      exact hstocked
    · rw [(hfree e' he).1, (hfree e' he).2]
      exact (h.stocked e').mono fun ptr hptr c hc =>
        hheap ptr c hc fun hi => h.exclusive.not_both i e' ptr hi hptr
  · by_cases hj : j = i
    · rw [hj]
      exact hfits
    · rw [(hheld j hj).1, (hheld j hj).2]
      exact (h.fits j).mono fun ptr hptr c hc =>
        hheap ptr c hc fun hi => hj (h.exclusive.one_holder j i ptr hptr hi)

/-- Call number `i` moves on and no client moves. -/
theorem Owned.goes (h : Owned options s) (hpc : s.pool.calls[i]? = some pc)
    (huses : uses? pc = none) (huses' : uses? pc' = none) {endpoints' : String → EndpointState}
    (hidle : ∀ e, (endpoints' e).idleClients = (s.pool.endpoints e).idleClients) :
    Owned options (s.goes i endpoints' pc') := by
  refine h.of_local (i := i) (e := "") h.exclusive (fun _ _ hc _ => hc)
    (fun e' _ => ⟨rfl, hidle e'⟩) (fun j hj => ⟨rfl, List.getElem?_set_ne (Ne.symm hj)⟩) ?_ ?_
  · simpa only [State.goes, hidle] using h.stocked ""
  · change Fits s.heap (s.pool.calls.set i pc')[i]? (s.clients.held i)
    rw [thread_set_self hpc, h.not_held hpc huses]
    exact huses'

/-- What `goes` leaves alone at other endpoints. -/
theorem idle_goes_of_ne {state : EndpointState} {e' : String} (he : e' ≠ e) :
    ((s.goes i (Function.update s.pool.endpoints e state) pc').pool.endpoints e').idleClients =
      (s.pool.endpoints e').idleClients := by
  dsimp only [State.goes]
  rw [Function.update_of_ne he]

theorem Owned.takes (h : Owned options s) {l : RpcClientPool.Loop}
    {clients : ResourcePool String Nat Nat} (hpc : s.pool.calls[i]? = some (.borrowing e l))
    (htake : s.clients.take e i = some clients) :
    Owned options { s.goes i (Function.update s.pool.endpoints e (s.pool.endpoints e).borrow)
      (.calling e l) with clients := clients } := by
  obtain ⟨ptr, rest, hfree, hfree', hheld'⟩ := ResourcePool.take_eq_some htake
  have hstocked := h.stocked e
  rw [hfree] at hstocked
  refine h.of_local (i := i) (e := e) (h.exclusive.take htake) (fun _ _ hc _ => hc)
    (fun e' he => ⟨?_, idle_goes_of_ne he⟩)
    (fun j hj => ⟨?_, List.getElem?_set_ne (Ne.symm hj)⟩) ?_ ?_
  · rw [hfree', Function.update_of_ne he]
  · rw [hheld', Function.update_of_ne hj]
  · dsimp only [State.goes]
    rw [hfree', Function.update_self, Function.update_self]
    refine ⟨fun p hp => hstocked.made p (List.mem_cons_of_mem _ hp), ?_,
      (Nat.le_succ _).trans hstocked.bounded⟩
    rw [EndpointState.borrow, ← hstocked.count]
    rfl
  · obtain ⟨c, hc, hendpoint, -⟩ := hstocked.made ptr List.mem_cons_self
    dsimp only [State.goes]
    rw [hheld', Function.update_self, thread_set_self hpc]
    exact ⟨c, hc, hendpoint⟩

theorem Owned.makes (h : Owned options s) {l : RpcClientPool.Loop}
    (hpc : s.pool.calls[i]? = some (.borrowing e l)) (hfree : s.clients.free e = []) :
    Owned options
      { s.goes i (Function.update s.pool.endpoints e (s.pool.endpoints e).borrow)
          (.calling e l) with
        clients := s.clients.lend i s.heap.length
        heap := s.heap ++ [{ endpoint := e }] } := by
  have hstocked := h.stocked e
  rw [hfree] at hstocked
  have hnew : ∀ {c : PooledClient}, s.heap[s.heap.length]? ≠ some c := by simp
  have hold : ∀ {ptr : Nat} {c : PooledClient}, s.heap[ptr]? = some c →
      (s.heap ++ [{ endpoint := e }])[ptr]? = some c := fun hc =>
    (List.getElem?_append_left (List.getElem?_eq_some_iff.mp hc).1).trans hc
  refine h.of_local (i := i) (e := e) ?_ (fun _ _ hc _ => hold hc)
    (fun e' he => ⟨rfl, idle_goes_of_ne he⟩)
    (fun j hj => ⟨Function.update_of_ne hj _ _, List.getElem?_set_ne (Ne.symm hj)⟩) ?_ ?_
  · refine h.exclusive.lend (fun e' hmem => ?_) (fun j hheld => ?_)
    · obtain ⟨c, hc, -⟩ := (h.stocked e').made _ hmem
      exact hnew hc
    · have hfits := h.fits j
      rw [hheld] at hfits
      cases hpc' : s.pool.calls[j]? with
      | none =>
          rw [hpc'] at hfits
          cases hfits
      | some pc' =>
          obtain ⟨c, hc, -⟩ := h.serves hpc' hheld
          exact hnew hc
  · dsimp only [State.goes, ResourcePool.lend]
    rw [hfree, Function.update_self]
    refine ⟨List.forall_mem_nil _, ?_, Nat.zero_le _⟩
    rw [EndpointState.borrow, ← hstocked.count]
    rfl
  · dsimp only [State.goes, ResourcePool.lend]
    rw [Function.update_self, thread_set_self hpc]
    exact ⟨_, List.getElem?_concat_length, rfl⟩

theorem Owned.releases (h : Owned options s) {result : ClientResult} {l : RpcClientPool.Loop}
    (hpc : s.pool.calls[i]? = some (.releasing e result l)) :
    Owned options
      { s.goes i (Function.update s.pool.endpoints e
            ((s.pool.endpoints e).release options result.ok)) (.recording e result l) with
        clients :=
          if result.ok ∧ (s.clients.free e).length < options.maxIdlePerEndpoint then
            s.clients.giveBack e i
          else s.clients.drop i } := by
  obtain ⟨ptr, c, hheld, hc, hserves⟩ := h.held hpc (by simp [uses?])
  have hstocked := h.stocked e
  have hcalls : ∀ j, j ≠ i → (s.pool.calls.set i (.recording e result l))[j]? =
      s.pool.calls[j]? := fun j hj => List.getElem?_set_ne (Ne.symm hj)
  split
  next hkeep =>
    have hgive : s.clients.giveBack e i =
        ⟨Function.update s.clients.free e (ptr :: s.clients.free e),
          Function.update s.clients.held i none⟩ := by
      unfold ResourcePool.giveBack
      rw [hheld]
    refine h.of_local (i := i) (e := e) (h.exclusive.giveBack e i) (fun _ _ hc _ => hc)
      (fun e' he => ⟨?_, idle_goes_of_ne he⟩) (fun j hj => ⟨?_, hcalls j hj⟩) ?_ ?_
    · rw [hgive]
      exact Function.update_of_ne he _ _
    · rw [hgive]
      exact Function.update_of_ne hj _ _
    · dsimp only [State.goes]
      rw [hgive]
      dsimp only
      rw [Function.update_self, Function.update_self, EndpointState.release,
        if_pos ⟨hkeep.1, hstocked.count ▸ hkeep.2⟩]
      refine ⟨fun p hp => ?_, congrArg (· + 1) hstocked.count, hkeep.2⟩
      rcases List.mem_cons.mp hp with rfl | hp
      · -- The call has succeeded, so its client is connected.
        exact ⟨c, hc, hserves.1, hserves.2 hkeep.1⟩
      · exact hstocked.made p hp
    · dsimp only [State.goes]
      rw [hgive]
      dsimp only
      rw [Function.update_self, thread_set_self hpc]
      rfl
  next hdrop =>
    refine h.of_local (i := i) (e := e) (h.exclusive.drop i) (fun _ _ hc _ => hc)
      (fun e' he => ⟨rfl, idle_goes_of_ne he⟩)
      (fun j hj => ⟨Function.update_of_ne hj _ _, hcalls j hj⟩) ?_ ?_
    · dsimp only [State.goes, ResourcePool.drop]
      rw [Function.update_self, EndpointState.release,
        if_neg fun hkeep => hdrop ⟨hkeep.1, hstocked.count ▸ hkeep.2⟩]
      exact hstocked
    · dsimp only [State.goes, ResourcePool.drop]
      rw [Function.update_self, thread_set_self hpc]
      rfl

/-- A call uses its client: the client stays the one of its endpoint. -/
theorem Owned.uses (h : Owned options s) {ptr : Nat} {c c' : PooledClient}
    (hpc : s.pool.calls[i]? = some pc) (hheld : s.clients.held i = some ptr)
    (hheap : s.heap[ptr]? = some c) (hclients : s'.clients = s.clients)
    (hendpoints : s'.pool.endpoints = s.pool.endpoints)
    (hcalls : s'.pool.calls = s.pool.calls.set i pc') (hheap' : s'.heap = s.heap.set ptr c')
    (hserves : Serves c' pc') : Owned options s' := by
  have hother : ∀ {ptr' : Nat} {c₀ : PooledClient}, s.heap[ptr']? = some c₀ →
      s.clients.held i ≠ some ptr' → s'.heap[ptr']? = some c₀ := by
    intro ptr' c₀ hc₀ hne
    rw [hheap']
    exact thread_set_other (fun heq => hne (heq ▸ hheld)) hc₀
  refine h.of_local (i := i) (e := "") (hclients ▸ h.exclusive) (fun _ _ hc hne => hother hc hne)
    (fun e' _ => by rw [hclients, hendpoints]; exact ⟨rfl, rfl⟩)
    (fun j hj => ⟨by rw [hclients], by rw [hcalls, List.getElem?_set_ne (Ne.symm hj)]⟩) ?_ ?_
  · rw [hclients, hendpoints]
    exact (h.stocked "").mono fun p hp c₀ hc₀ =>
      hother hc₀ fun hi => h.exclusive.not_both i "" p hi hp
  · rw [hclients, hcalls, hheap', hheld, thread_set_self hpc]
    exact ⟨c', thread_set_self hheap, hserves⟩

theorem Owned.step {a : Action} (h : Owned options s) (hmoves : Moves options s a s') :
    Owned options s' := by
  cases hmoves with
  | tick ms => exact ⟨h.exclusive, h.stocked, h.fits⟩
  | enters endpoints serialId requestData pool pc hcalls hendpoints huses hanswered =>
      refine ⟨h.exclusive, ?_, fun j => ?_⟩
      · change ∀ e, Stocked options s.heap e (s.clients.free e) (pool.endpoints e).idleClients
        rw [hendpoints]
        exact h.stocked
      · change Fits s.heap pool.calls[j]? (s.clients.held j)
        rw [hcalls]
        have hfits := h.fits j
        rcases thread_concat_cases s.pool.calls j pc with hold | ⟨-, hnone, hnew⟩
        · rw [hold]
          exact hfits
        · rw [hnone] at hfits
          rw [hnew, show s.clients.held j = none from hfits]
          exact huses
  | other i inp pc pc' endpoints' hpc huses huses' hanswered hidle =>
      exact h.goes hpc huses huses' hidle
  | takes i inp e l clients hpc htake => exact h.takes hpc htake
  | makes i inp e l hpc hfree => exact h.makes hpc hfree
  | releases i inp e result l hpc => exact h.releases hpc
  | sends i exchange e l ptr c d arrivals hpc hheld hheap hsent hsend =>
      obtain ⟨c₀, hc₀, hserves⟩ := h.serves hpc hheld
      obtain rfl : c = c₀ := Option.some.inj (hheap.symm.trans hc₀)
      have hserves' : Serves { c with client := { socket := some arrivals } } (.calling e l) :=
        hserves
      exact h.uses hpc hheld hheap rfl rfl (thread_set_same hpc).symm rfl hserves'
  | ends a i e l ptr c d ok client serialId payload hpc hheld hheap hdata hended =>
      obtain ⟨c₀, hc₀, hserves⟩ := h.serves hpc hheld
      obtain rfl : c = c₀ := Option.some.inj (hheap.symm.trans hc₀)
      refine h.uses hpc hheld hheap rfl rfl rfl rfl ⟨hserves, fun hok => ?_⟩
      cases hended with
      | unsent => cases hok
      | unread => cases hok
      | read => rfl

end Ownership

/-! ## Responses -/

/-- The step in which call number `i` sends its request to the endpoint `e`;
the server answers with `exchange.reply`. -/
def Asks (i : Nat) (e : String) (exchange : UnaryExchange) (τ : PooledTransition) : Prop :=
  τ.action = .send i exchange ∧ ∃ l, τ.pre.pool.calls[i]? = some (.calling e l)

/-- The output parameters are the server's answer to the request that call
number `i` has sent to `e`. -/
def HasAnswer (trace : List PooledTransition) (i : Nat) (e : String) (d : CallData) : Prop :=
  ∃ τ ∈ trace, ∃ exchange response fits, Asks i e exchange τ ∧
    exchange.reply = .frame response fits ∧ d.responseSerialId = response.serialId ∧
    d.responseData = response.payload

/-- What a call returns in its output parameters. -/
structure Told (trace : List PooledTransition) (i : Nat) (pc : CallPc) (d : CallData) : Prop where
  answered : ∀ e, answeredBy? pc = some e → HasAnswer trace i e d
  unanswered : answeredBy? pc = none → d.responseSerialId = 0 ∧ d.responseData = []

/-- A call that has sent its request: of what the server has answered, any part
is to come in on its connection. -/
def Awaits (trace : List PooledTransition) (s : State) (i : Nat) (exchange : UnaryExchange) :
    Prop :=
  ∃ ptr c pending e l, s.clients.held i = some ptr ∧ s.heap[ptr]? = some c ∧
    c.client.socket = some pending ∧ allBytes pending <+: exchange.reply.bytes ∧
    s.pool.calls[i]? = some (.calling e l) ∧ ∃ τ ∈ trace, Asks i e exchange τ

/-- Only the answer to the request that was sent last is to come in on a
connection. -/
structure Paired (trace : List PooledTransition) (s : State) : Prop where
  lengths : s.data.length = s.pool.calls.length
  quiet : ∀ ptr c, s.heap[ptr]? = some c →
    (∀ i, s.clients.held i = some ptr → s.sent i = none) → c.client.Quiet
  awaits : ∀ i exchange, s.sent i = some exchange → Awaits trace s i exchange
  told : ∀ i pc d, s.pool.calls[i]? = some pc → s.data[i]? = some d → Told trace i pc d

theorem paired_built (now : Nat) : Paired [] (.built now) := by
  refine ⟨rfl, ?_, ?_, ?_⟩ <;> simp [State.built]

section Responses

variable {options : Options} {trace : List PooledTransition} {τ : PooledTransition} {s s' : State}
  {i : Nat} {pc pc' : CallPc}

theorem HasAnswer.snoc {e : String} {d : CallData} (h : HasAnswer trace i e d) :
    HasAnswer (trace ++ [τ]) i e d := by
  obtain ⟨ρ, hρ, hanswer⟩ := h
  exact ⟨ρ, List.mem_append_left _ hρ, hanswer⟩

theorem Told.snoc {d : CallData} (h : Told trace i pc d)
    (hanswered : answeredBy? pc' = answeredBy? pc) : Told (trace ++ [τ]) i pc' d where
  answered e he := (h.answered e (hanswered ▸ he)).snoc
  unanswered hnone := h.unanswered (hanswered ▸ hnone)

/-- The call goes on waiting while other calls make a step. -/
theorem Awaits.snoc {exchange : UnaryExchange} (h : Awaits trace s i exchange)
    (hheld : s'.clients.held i = s.clients.held i)
    (hheap : ∀ (ptr : Nat) (c : PooledClient), s.clients.held i = some ptr →
      s.heap[ptr]? = some c → s'.heap[ptr]? = some c)
    (hcalls : ∀ pc, s.pool.calls[i]? = some pc → s'.pool.calls[i]? = some pc) :
    Awaits (trace ++ [τ]) s' i exchange := by
  obtain ⟨ptr, c, pending, e, l, hptr, hc, hsocket, hpart, hpc, ρ, hρ, hasks⟩ := h
  exact ⟨ptr, c, pending, e, l, hheld.trans hptr, hheap ptr c hptr hc, hsocket, hpart,
    hcalls _ hpc, ρ, List.mem_append_left _ hρ, hasks⟩

theorem Paired.not_sent (h : Paired trace s) (hpc : s.pool.calls[i]? = some pc)
    (hcalling : isCalling pc = false) : s.sent i = none := by
  cases hsent : s.sent i with
  | none => rfl
  | some exchange =>
      obtain ⟨_, _, _, e, l, _, _, _, _, hpc₀, _⟩ := h.awaits i exchange hsent
      rw [hpc, Option.some.injEq] at hpc₀
      subst hpc₀
      cases hcalling

/-- A call that is not in `RpcClient::call` makes a step, in which it may get a
client or give its client away. -/
theorem Paired.goes (h : Paired trace s) (hpc : s.pool.calls[i]? = some pc)
    (hcalling : isCalling pc = false) (hcalls : s'.pool.calls = s.pool.calls.set i pc')
    (hanswered : answeredBy? pc' = answeredBy? pc) (hdata : s'.data = s.data)
    (hsent : s'.sent = s.sent) (hheld : ∀ j, j ≠ i → s'.clients.held j = s.clients.held j)
    (hheap : ∀ (ptr : Nat) (c : PooledClient), s'.heap[ptr]? = some c →
      s.heap[ptr]? = some c ∨ c.client.Quiet)
    (hkept : ∀ (ptr : Nat) (c : PooledClient), s.heap[ptr]? = some c → s'.heap[ptr]? = some c) :
    Paired (trace ++ [τ]) s' := by
  have hnone := h.not_sent hpc hcalling
  refine ⟨?_, ?_, ?_, ?_⟩
  · rw [hdata, hcalls, List.length_set]
    exact h.lengths
  · intro ptr c hc hfree
    rcases hheap ptr c hc with hold | hquiet
    · refine h.quiet ptr c hold fun j hj => ?_
      by_cases hji : j = i
      · rw [hji]
        exact hnone
      · rw [← hsent]
        exact hfree j ((hheld j hji).trans hj)
    · exact hquiet
  · intro j exchange hj
    rw [hsent] at hj
    have hother : j ≠ i := by
      rintro rfl
      rw [hnone] at hj
      cases hj
    refine (h.awaits j exchange hj).snoc (hheld j hother) (fun ptr c _ => hkept ptr c) ?_
    intro pc₀ hpc₀
    rw [hcalls]
    exact thread_set_other hother hpc₀
  · intro j pc₀ d hpc₀ hd
    rw [hcalls] at hpc₀
    rw [hdata] at hd
    rcases thread_of_set hpc₀ with ⟨rfl, rfl⟩ | ⟨-, hold⟩
    · exact (h.told j pc d hpc hd).snoc hanswered
    · exact (h.told j pc₀ d hold hd).snoc rfl

/-- A client that nobody has sent a request on is quiet. -/
theorem Paired.quiet_of_held (h : Paired trace s) (howned : Owned options s) {ptr : Nat}
    {c : PooledClient} (hheld : s.clients.held i = some ptr) (hheap : s.heap[ptr]? = some c)
    (hsent : s.sent i = none) : c.client.Quiet := by
  refine h.quiet ptr c hheap fun j hj => ?_
  rw [howned.exclusive.one_holder j i ptr hj hheld]
  exact hsent

section UsesClient

variable {ptr : Nat} {c' : PooledClient} {sent : Option UnaryExchange}

/-- While call `i` uses its client, the other clients are as quiet as before. -/
theorem Paired.quiet_other (h : Paired trace s) (hheld : s.clients.held i = some ptr)
    {ptr' : Nat} {c : PooledClient} (hne : ptr' ≠ ptr) (hc : s.heap[ptr']? = some c)
    (hfree : ∀ j, s.clients.held j = some ptr' → Function.update s.sent i sent j = none) :
    c.client.Quiet := by
  refine h.quiet ptr' c hc fun j hj => ?_
  have hji : j ≠ i := by
    rintro rfl
    exact hne (Option.some.inj (hj.symm.trans hheld))
  have hnone := hfree j hj
  rw [Function.update_of_ne hji] at hnone
  exact hnone

/-- And the other calls go on waiting. -/
theorem Paired.awaits_other (h : Paired trace s) (howned : Owned options s)
    (hheld : s.clients.held i = some ptr) {j : Nat} {exchange : UnaryExchange} (hj : j ≠ i)
    (hsent : s.sent j = some exchange) (hclients : s'.clients = s.clients)
    (hheap : s'.heap = s.heap.set ptr c')
    (hcalls : ∀ pc, s.pool.calls[j]? = some pc → s'.pool.calls[j]? = some pc) :
    Awaits (trace ++ [τ]) s' j exchange := by
  refine (h.awaits j exchange hsent).snoc (by rw [hclients]) (fun ptr' c hptr' hc => ?_) hcalls
  rw [hheap]
  refine thread_set_other ?_ hc
  rintro rfl
  exact hj (howned.exclusive.one_holder j i ptr' hptr' hheld)

end UsesClient

variable {a : Action} {e : String} {l : RpcClientPool.Loop} {ptr : Nat} {c : PooledClient}
  {d : CallData} {ok : Bool} {client : RpcClient} {serialId : UInt32} {payload : List UInt8}

theorem Paired.sends (h : Paired trace τ.pre) (howned : Owned options τ.pre)
    {exchange : UnaryExchange} {arrivals : List Arrival} (haction : τ.action = .send i exchange)
    (hpc : τ.pre.pool.calls[i]? = some (.calling e l)) (hheld : τ.pre.clients.held i = some ptr)
    (hheap : τ.pre.heap[ptr]? = some c) (hsent : τ.pre.sent i = none)
    (hsend : c.client.sendRequest d.serialId d.requestData exchange.toCallInput = .ok arrivals) :
    Paired (trace ++ [τ]) { τ.pre with
      heap := τ.pre.heap.set ptr { c with client := { socket := some arrivals } }
      sent := Function.update τ.pre.sent i (some exchange) } := by
  refine ⟨h.lengths, ?_, ?_, ?_⟩
  · intro ptr' c' hc' hfree
    rcases thread_of_set hc' with ⟨rfl, -⟩ | ⟨hne, hold⟩
    · have hnone := hfree i hheld
      dsimp only at hnone
      rw [Function.update_self] at hnone
      cases hnone
    · exact h.quiet_other hheld hne hold hfree
  · intro j exchange' hj
    dsimp only at hj
    by_cases hji : j = i
    · rw [hji, Function.update_self, Option.some.injEq] at hj
      subst hji hj
      refine ⟨ptr, _, arrivals, e, l, hheld, thread_set_self hheap, rfl, ?_, hpc, τ, by simp,
        haction, l, hpc⟩
      rw [(h.quiet_of_held howned hheld hheap hsent).sendRequest hsend]
      exact exchange.part
    · rw [Function.update_of_ne hji] at hj
      exact h.awaits_other howned hheld hji hj rfl rfl fun _ hpc₀ => hpc₀
  · intro j pc₀ d₀ hpc₀ hd₀
    exact (h.told j pc₀ d₀ hpc₀ hd₀).snoc rfl

/-- The client is quiet after `RpcClient::call`, and a response that was read is
the answer to the request. -/
theorem Paired.ended (h : Paired trace s)
    (hpc : s.pool.calls[i]? = some (.calling e l)) (hheld : s.clients.held i = some ptr)
    (hheap : s.heap[ptr]? = some c) (hended : Ended s i c d a ok client serialId payload) :
    client.Quiet ∧
      (ok = true → HasAnswer trace i e
        { d with responseSerialId := serialId, responseData := payload }) ∧
      (ok = false → serialId = 0 ∧ payload = []) := by
  cases hended with
  | unsent exchange client hsent hsend =>
      exact ⟨quiet_of_closed (RpcClient.closed_of_sendRequest hsend), by simp, fun _ => ⟨rfl, rfl⟩⟩
  | unread exchange report hsent =>
      exact ⟨quiet_of_closed rfl, by simp, fun _ => ⟨rfl, rfl⟩⟩
  | read exchange arrivals rest response hsent hsocket hread =>
      obtain ⟨ptr', c', pending, e', l', hheld', hheap', hsocket', hpart, hpc', ρ, hρ, hasks⟩ :=
        h.awaits i exchange hsent
      obtain rfl : ptr = ptr' := Option.some.inj (hheld.symm.trans hheld')
      obtain rfl : c = c' := Option.some.inj (hheap.symm.trans hheap')
      obtain rfl : arrivals = pending := Option.some.inj (hsocket.symm.trans hsocket')
      obtain ⟨⟨fits, hreply⟩, hrest⟩ := paired_of_readResponse hread hpart
      refine ⟨?_, fun _ => ?_, by simp⟩
      · intro pending hpending
        obtain rfl := Option.some.inj hpending
        exact hrest
      · rw [hpc, Option.some.injEq] at hpc'
        cases hpc'
        exact ⟨ρ, hρ, exchange, response, fits, hasks, hreply, rfl, rfl⟩

theorem Paired.ends (h : Paired trace s) (howned : Owned options s)
    (hpc : s.pool.calls[i]? = some (.calling e l)) (hheld : s.clients.held i = some ptr)
    (hheap : s.heap[ptr]? = some c) (hdata : s.data[i]? = some d)
    (hended : Ended s i c d a ok client serialId payload) :
    Paired (trace ++ [τ])
      { s.goes i s.pool.endpoints (.releasing e (clientResult ok client) l) with
        heap := s.heap.set ptr { c with client := client }
        data := s.data.set i { d with responseSerialId := serialId, responseData := payload }
        sent := Function.update s.sent i none } := by
  obtain ⟨hquiet, hok, hfailed⟩ := h.ended hpc hheld hheap hended
  refine ⟨?_, ?_, ?_, ?_⟩
  · simp only [State.goes, List.length_set]
    exact h.lengths
  · intro ptr' c' hc' hfree
    rcases thread_of_set hc' with ⟨-, rfl⟩ | ⟨hne, hold⟩
    · exact hquiet
    · exact h.quiet_other hheld hne hold hfree
  · intro j exchange hj
    dsimp only at hj
    by_cases hji : j = i
    · rw [hji, Function.update_self] at hj
      cases hj
    · rw [Function.update_of_ne hji] at hj
      exact h.awaits_other howned hheld hji hj rfl rfl fun _ hpc₀ => thread_set_other hji hpc₀
  · intro j pc₀ d₀ hpc₀ hd₀
    rcases thread_of_set hpc₀ with ⟨rfl, rfl⟩ | ⟨hji, hold⟩
    · rcases thread_of_set hd₀ with ⟨-, rfl⟩ | ⟨hne, -⟩
      · cases ok with
        | true =>
            refine ⟨fun e' he' => ?_, by simp [answeredBy?, clientResult]⟩
            simp only [answeredBy?, clientResult, if_true, Option.some.injEq] at he'
            subst he'
            exact (hok rfl).snoc
        | false =>
            exact ⟨by simp [answeredBy?, clientResult], fun _ => hfailed rfl⟩
      · exact absurd rfl hne
    · rcases thread_of_set hd₀ with ⟨rfl, -⟩ | ⟨-, hd₀⟩
      · exact absurd rfl hji
      · exact (h.told j pc₀ d₀ hold hd₀).snoc rfl

theorem Paired.step (h : Paired trace τ.pre) (howned : Owned options τ.pre)
    (hmoves : Moves options τ.pre τ.action τ.post) : Paired (trace ++ [τ]) τ.post := by
  obtain ⟨pre, action, post⟩ := τ
  dsimp only at h howned hmoves ⊢
  cases hmoves with
  | tick ms =>
      refine ⟨h.lengths, h.quiet, ?_, ?_⟩
      · intro j exchange hj
        exact (h.awaits j exchange hj).snoc rfl (fun _ _ _ hc => hc) fun _ hpc => hpc
      · intro j pc d hpc hd
        exact (h.told j pc d hpc hd).snoc rfl
  | enters endpoints serialId requestData pool pc hcalls hendpoints huses hanswered =>
      refine ⟨?_, h.quiet, ?_, ?_⟩
      · dsimp only
        rw [hcalls, List.length_append, List.length_append, h.lengths]
        rfl
      · intro j exchange hj
        refine (h.awaits j exchange hj).snoc rfl (fun _ _ _ hc => hc) fun _ hpc => ?_
        dsimp only
        rw [hcalls]
        exact (List.getElem?_append_left (List.getElem?_eq_some_iff.mp hpc).1).trans hpc
      · intro j pc₀ d hpc₀ hd
        dsimp only at hpc₀ hd
        rw [hcalls] at hpc₀
        rcases thread_concat_cases pre.pool.calls j pc with hold | ⟨hj, -, hnew⟩
        · rw [hold] at hpc₀
          have hlt : j < pre.data.length := by
            rw [h.lengths]
            exact (List.getElem?_eq_some_iff.mp hpc₀).1
          rw [List.getElem?_append_left hlt] at hd
          exact (h.told j pc₀ d hpc₀ hd).snoc rfl
        · rw [hnew, Option.some.injEq] at hpc₀
          rw [hj, ← h.lengths, List.getElem?_concat_length, Option.some.injEq] at hd
          subst hpc₀ hd
          refine ⟨fun e he => ?_, fun _ => ⟨rfl, rfl⟩⟩
          rw [hanswered] at he
          cases he
  | other i inp pc pc' endpoints' hpc huses huses' hanswered hidle =>
      have hcalling : isCalling pc = false := by
        cases pc with
        | calling e l => cases huses
        | _ => rfl
      exact h.goes hpc hcalling rfl hanswered rfl rfl (fun _ _ => rfl) (fun _ _ hc => .inl hc)
        fun _ _ hc => hc
  | takes i inp e l clients hpc htake =>
      obtain ⟨ptr, rest, -, -, hheld'⟩ := ResourcePool.take_eq_some htake
      refine h.goes hpc rfl rfl rfl rfl rfl (fun j hj => ?_) (fun _ _ hc => .inl hc)
        fun _ _ hc => hc
      dsimp only
      rw [hheld', Function.update_of_ne hj]
  | makes i inp e l hpc hfree =>
      refine h.goes hpc rfl rfl rfl rfl rfl (fun j hj => Function.update_of_ne hj _ _)
        (fun ptr c hc => ?_) fun ptr c hc => ?_
      · rcases thread_concat_cases pre.heap ptr { endpoint := e } with hold | ⟨-, -, hnew⟩
        · exact .inl (hold ▸ hc)
        · obtain rfl := Option.some.inj (hnew.symm.trans hc)
          exact .inr (quiet_of_closed rfl)
      · exact (List.getElem?_append_left (List.getElem?_eq_some_iff.mp hc).1).trans hc
  | releases i inp e result l hpc =>
      refine h.goes hpc rfl rfl rfl rfl rfl (fun j hj => ?_) (fun _ _ hc => .inl hc)
        fun _ _ hc => hc
      dsimp only
      split
      · unfold ResourcePool.giveBack
        cases hheld : pre.clients.held i with
        | none => rfl
        | some ptr => exact Function.update_of_ne hj _ _
      · exact Function.update_of_ne hj _ _
  | sends i exchange e l ptr c d arrivals hpc hheld hheap hsent hsend =>
      exact Paired.sends h howned rfl hpc hheld hheap hsent hsend
  | ends a i e l ptr c d ok client serialId payload hpc hheld hheap hdata hended =>
      exact h.ends howned hpc hheld hheap hdata hended

end Responses

/-! ## Runs -/

section Runs

variable {options : Options} {s : State}

/-- Sending and receiving, when nothing comes between them, is `RpcClient::call`. -/
theorem send_receive_eq_call (s : State) (options : Options) (i ptr : Nat)
    (exchange : UnaryExchange) (c : PooledClient) (d : CallData) :
    let result := c.client.call d.serialId d.requestData exchange.toCallInput
    let finish := fun (s₁ : State) (c₁ : PooledClient) => s₁.finishCall options i ptr c₁ d result.ok
      result.client result.responseSerialId result.responseData
    s.send options i exchange ptr c d = finish s c ∨
      ∃ s₁ arrivals, s.send options i exchange ptr c d = some s₁ ∧
        s₁.receive options i ptr { c with client := { socket := some arrivals } } d =
          finish s₁ { c with client := { socket := some arrivals } } := by
  dsimp only
  unfold RpcClient.call State.send
  cases hsend : c.client.sendRequest d.serialId d.requestData exchange.toCallInput with
  | error client => exact .inl rfl
  | ok arrivals =>
      refine .inr ⟨_, arrivals, rfl, ?_⟩
      unfold State.receive
      dsimp only
      rcases readResponse arrivals with ⟨e | response, rest⟩ <;> rfl

/-- The step of the pool in a step. -/
theorem pool_of_step {s' : State} {a : Action} (h : step options s a = some s') :
    s'.pool = s.pool ∨ ∃ b, RpcClientPool.step options s.pool b = some s'.pool := by
  have hadvance : ∀ {m : State} {i inp}, m.advancePool options i inp = some s' →
      m.pool = s.pool → ∃ b, RpcClientPool.step options s.pool b = some s'.pool := by
    intro m i inp hm hpool
    obtain ⟨pool, hstep, rfl⟩ := Option.map_eq_some_iff.mp hm
    rw [hpool] at hstep
    exact ⟨_, hstep⟩
  cases a with
  | tick ms =>
      obtain rfl := Option.some.inj h
      exact .inr ⟨.tick ms, rfl⟩
  | call endpoints serialId requestData =>
      obtain rfl := Option.some.inj h
      exact .inr ⟨.call endpoints, rfl⟩
  | advance i inp =>
      simp only [step] at h
      split at h
      next => cases h
      next pc hpc =>
        split at h
        next => cases h
        next =>
          refine .inr (hadvance h ?_)
          cases pc with
          | borrowing e l =>
              simp only [State.moveClient]
              split <;> rfl
          | releasing e result l =>
              simp only [State.moveClient]
              split <;> rfl
          | _ => rfl
  | send i exchange =>
      simp only [step] at h
      split at h
      next =>
        obtain ⟨c, -, h⟩ := Option.bind_eq_some_iff.mp h
        unfold State.send at h
        split at h
        · exact .inr (hadvance h rfl)
        · obtain rfl := Option.some.inj h
          exact .inl rfl
      next => cases h
  | receive i =>
      simp only [step] at h
      split at h
      next =>
        obtain ⟨c, -, h⟩ := Option.bind_eq_some_iff.mp h
        unfold State.receive at h
        split at h
        · cases h
        · split at h <;> exact .inr (hadvance h rfl)
      next => cases h

/-- A run with client objects is a run of the pool that only counts them. -/
theorem pool_run {now : Nat} {trace : List PooledTransition}
    (hrun : Run (step options) (.built now) trace s) :
    ∃ poolTrace, Run (RpcClientPool.step options) (RpcClientPool.built now) poolTrace s.pool := by
  induction hrun with
  | nil => exact ⟨[], .nil⟩
  | snoc hrun hstep ih =>
      obtain ⟨poolTrace, hpool⟩ := ih
      rcases pool_of_step hstep with hsame | ⟨b, hb⟩
      · rw [hsame]
        exact ⟨poolTrace, hpool⟩
      · exact ⟨_, .snoc hpool hb⟩

theorem owned_of_run {now : Nat} {trace : List PooledTransition}
    (hrun : Run (step options) (.built now) trace s) : Owned options s := by
  refine hrun.invariant (owned_built options now) fun τ _ hstep h => ?_
  exact h.step (moves_of_step hstep)

theorem paired_of_run {now : Nat} {trace : List PooledTransition}
    (hrun : Run (step options) (.built now) trace s) : Paired trace s := by
  refine hrun.history_invariant (P := Paired) (paired_built now) ?_
  intro earlier τ _ hearlier hstep h
  exact h.step (owned_of_run hearlier) (moves_of_step hstep)

end Runs

/-- For every interleaving of calls of a pool: a client is never used by two
calls and never idle while a call uses it; a call between `borrow` and `release`
has a client that was made for its endpoint; and an endpoint has as many idle
clients as the pool counts, no more than `max_idle_per_endpoint`, all different,
connected, with nothing left to come in. -/
theorem pooled_clients_exclusive (options : Options) (now : Nat) (trace : List PooledTransition)
    (s : State) (hrun : Run (step options) (.built now) trace s) :
    (∃ poolTrace, Run (RpcClientPool.step options) (RpcClientPool.built now) poolTrace s.pool) ∧
    (∀ i j ptr, s.clients.held i = some ptr → s.clients.held j = some ptr → i = j) ∧
    (∀ i e ptr, s.clients.held i = some ptr → ptr ∉ s.clients.free e) ∧
    (∀ i pc e, s.pool.calls[i]? = some pc → uses? pc = some e →
      ∃ ptr c, s.clients.held i = some ptr ∧ s.heap[ptr]? = some c ∧ c.endpoint = e) ∧
    ∀ e, (s.clients.free e).Nodup ∧
      (s.clients.free e).length = (s.pool.endpoints e).idleClients ∧
      (s.clients.free e).length ≤ options.maxIdlePerEndpoint ∧
      ∀ ptr ∈ s.clients.free e, ∃ c, s.heap[ptr]? = some c ∧ c.endpoint = e ∧
        c.client.socket.isSome = true ∧ c.client.Quiet := by
  have howned := owned_of_run hrun
  have hpaired := paired_of_run hrun
  refine ⟨pool_run hrun, howned.exclusive.one_holder,
    fun i e ptr => howned.exclusive.not_both i e ptr, ?_,
    fun e => ⟨howned.exclusive.nodup e, (howned.stocked e).count, (howned.stocked e).bounded, ?_⟩⟩
  · intro i pc e hpc huses
    obtain ⟨ptr, c, hheld, hheap, hserves⟩ := howned.held hpc (by simp [huses])
    refine ⟨ptr, c, hheld, hheap, ?_⟩
    cases pc with
    | calling endpoint l =>
        cases huses
        exact hserves
    | releasing endpoint result l =>
        cases huses
        exact hserves.1
    | _ => cases huses
  · intro ptr hptr
    obtain ⟨c, hheap, hendpoint, hsocket⟩ := (howned.stocked e).made ptr hptr
    refine ⟨c, hheap, hendpoint, hsocket, hpaired.quiet ptr c hheap fun i hheld => ?_⟩
    exact absurd hptr (howned.exclusive.not_both i e ptr hheld)

/-- For every interleaving of calls of a pool, whatever fails on the
connections: a call that returns true returns in its output parameters the
answer that the selected endpoint has sent to the request of this very call, and
a call that returns false returns nothing in them. -/
theorem pooled_responses_paired (options : Options) (now : Nat) (trace : List PooledTransition)
    (s : State) (hrun : Run (step options) (.built now) trace s) (i : Nat)
    (result : RpcClientPool.CallResult) (d : CallData)
    (hreturned : s.pool.calls[i]? = some (.returned result)) (hdata : s.data[i]? = some d) :
    (result.ok = true → HasAnswer trace i result.selectedEndpoint d) ∧
    (result.ok = false → d.responseSerialId = 0 ∧ d.responseData = []) := by
  have htold := (paired_of_run hrun).told i _ d hreturned hdata
  constructor
  · intro hok
    exact htold.answered _ (by simp [answeredBy?, hok])
  · intro hok
    exact htold.unanswered (by simp [answeredBy?, hok])

/-- The server answers `A`, in two pieces. -/
def answerA : UnaryExchange where
  answer := [.piece 0 [0, 0, 5, 0, 0], .piece 0 [2, 65]]
  reply := .frame ⟨2, [65]⟩ (by decide)
  part := by decide

/-- The server answers `B`. -/
def answerB : UnaryExchange where
  answer := [.piece 0 [0, 0, 5, 0, 0, 0, 2, 66]]
  reply := .frame ⟨2, [66]⟩ (by decide)
  part := by decide

/-- Two calls of one endpoint at the same time; the second is answered first. -/
def crossedRun : List Action :=
  [.call ["10.0.0.1:9000"] 1 [1], .call ["10.0.0.1:9000"] 1 [2]] ++
    List.replicate 6 (.advance 0 {}) ++ List.replicate 6 (.advance 1 {}) ++
    [.send 0 answerA, .send 1 answerB, .receive 1, .receive 0] ++
    List.replicate 2 (.advance 1 {}) ++ List.replicate 2 (.advance 0 {})

theorem pooled_clients_exclusive_crossed :
    ∃ s, Run (step {}) (.built 0) (executeTrace (step {}) (.built 0) crossedRun) s ∧
      s.clients.free "10.0.0.1:9000" = [0, 1] ∧
      (s.pool.endpoints "10.0.0.1:9000").idleClients = 2 := by
  obtain ⟨s, hrun, hs⟩ : ∃ s, Run (step {}) (.built 0)
      (executeTrace (step {}) (.built 0) crossedRun) s ∧
      decide (s.clients.free "10.0.0.1:9000" = [0, 1]) = true :=
    exists_run_of_execute (by decide +kernel)
  have hfree := of_decide_eq_true hs
  refine ⟨s, hrun, hfree, ?_⟩
  rw [← ((pooled_clients_exclusive {} 0 _ s hrun).2.2.2.2 "10.0.0.1:9000").2.1, hfree]
  rfl

theorem pooled_responses_paired_crossed :
    ∃ s d, Run (step {}) (.built 0) (executeTrace (step {}) (.built 0) crossedRun) s ∧
      s.data[1]? = some d ∧ d.responseData = [66] ∧
      HasAnswer (executeTrace (step {}) (.built 0) crossedRun) 1 "10.0.0.1:9000" d := by
  obtain ⟨s, hrun, hs⟩ : ∃ s, Run (step {}) (.built 0)
      (executeTrace (step {}) (.built 0) crossedRun) s ∧
      decide (s.pool.calls[1]? = some (CallPc.returned
          { ok := true, selectedEndpoint := "10.0.0.1:9000" }) ∧
        s.data[1]?.map CallData.responseData = some [66]) = true :=
    exists_run_of_execute (by decide +kernel)
  obtain ⟨hcall, hdata⟩ := of_decide_eq_true hs
  obtain ⟨d, hd, hresponse⟩ := Option.map_eq_some_iff.mp hdata
  exact ⟨s, d, hrun, hd, hresponse, (pooled_responses_paired {} 0 _ s hrun 1 _ d hcall hd).1 rfl⟩

end PooledClients
end Corpcron
