import Corpcron.Rpc.RpcClient

/-!
# Calls on a reused connection

`RpcClient::call` and `callStream` keep the socket open for the next request or
close it.  Frames carry no request number, so a response is known to belong to a
request only by its position on the connection.  What makes this sound is
`RpcClient.Quiet`: on a socket that is open between two calls, nothing is left to
come in.  Every exit that could leave something behind closes the socket.

`response_pairing` draws the conclusion for any sequence of calls, whatever
fails in them.
-/

namespace Corpcron

open Lib

/-! ## The client -/

/-- The state of an `RpcClient`. -/
structure RpcClient where
  /-- What is still to come in on the socket; `none` for `sock_fd_ == -1`. -/
  socket : Option (List Arrival) := none
  lastStatus : RpcCallStatus := .ok
  lastError : String := ""

/-- How `connect` ends when there is no socket yet. -/
inductive ConnectResult where
  | connected
  | failed (status : RpcCallStatus) (error : String)

/-- What a call meets outside. -/
structure CallInput where
  connect : ConnectResult := .connected
  sends : List SendStep := []
  /-- What comes in because of the request. -/
  answer : List Arrival := []

/-- `disconnect` and `setLastError`. -/
def RpcClient.failed (report : RpcCallStatus × String) : RpcClient :=
  { socket := none, lastStatus := report.1, lastError := report.2 }

/-- `ensureConnected`: what is still to come in on the socket, or the client that
could not connect. -/
def RpcClient.ensureConnected (client : RpcClient) (inp : CallInput) :
    Except RpcClient (List Arrival) :=
  match client.socket with
  | some pending => .ok pending
  | none =>
      match inp.connect with
      | .connected => .ok []
      | .failed status error => .error (.failed (status, error))

/-- The part of `call` and `callStream` that sends the request: what comes in on
the socket from then on, or the client the call has failed with. -/
def RpcClient.sendRequest (client : RpcClient) (serialId : UInt32) (requestData : List UInt8)
    (inp : CallInput) : Except RpcClient (List Arrival) :=
  match client.ensureConnected inp with
  | .error client' => .error client'
  | .ok pending =>
      match tryEncode serialId requestData with
      | none => .error (.failed (.payloadTooLarge, "request payload too large"))
      | some data =>
          match sendAll data inp.sends with
          | some why => .error (.failed (why.status, why.status.name))
          | none => .ok (pending ++ inp.answer)

/-- The client after a call, and what the call returns. -/
structure CallResult where
  client : RpcClient
  ok : Bool
  responseSerialId : UInt32
  responseData : List UInt8

/-- `call`. -/
def RpcClient.call (client : RpcClient) (serialId : UInt32) (requestData : List UInt8)
    (inp : CallInput) : CallResult :=
  match client.sendRequest serialId requestData inp with
  | .error client' => ⟨client', false, 0, []⟩
  | .ok arrivals =>
      match readResponse arrivals with
      | (.error e, _) => ⟨.failed e.ofCall, false, 0, []⟩
      | (.ok response, rest) =>
          ⟨{ socket := some rest }, true, response.serialId, response.payload⟩

/-- The client after a streaming call, what the call returns and the state of
the callback. -/
structure StreamResult (σ : Type*) where
  client : RpcClient
  ok : Bool
  state : σ

/-- A callback with its state: it returns whether it wants more. -/
abbrev StreamCallback (σ : Type*) := σ → RpcResponse → σ × Bool

/-- A response that was read made the stream shorter. -/
theorem arrived_lt_of_readResponse {arrivals rest : List Arrival} {response : RpcResponse}
    (h : readResponse arrivals = (.ok response, rest)) :
    (arrived rest).length < (arrived arrivals).length := by
  obtain ⟨n, hdec, harr, -⟩ := complete_of_readResponse h
  obtain ⟨hle, henc⟩ := tryEncode_of_complete hdec
  have hlen := length_of_tryEncode henc
  rw [List.length_take] at hlen
  rw [harr, List.length_drop]
  omega

/-- The loop of `callStream`; without a callback it goes on until reading
fails. -/
def streamLoop {σ : Type*} (onResponse : Option (StreamCallback σ)) (state : σ)
    (arrivals : List Arrival) : StreamResult σ :=
  match _h : readResponse arrivals with
  | (.error e, _) => ⟨.failed e.ofCallStream, false, state⟩
  | (.ok response, rest) =>
      match onResponse with
      | none => streamLoop none state rest
      | some callback =>
          match callback state response with
          | (state', true) => streamLoop (some callback) state' rest
          -- The callback stops; unread frames are dropped with the connection.
          | (state', false) => ⟨{ socket := none }, true, state'⟩
termination_by (arrived arrivals).length
decreasing_by
  all_goals exact arrived_lt_of_readResponse _h

/-- `callStream`. -/
def RpcClient.callStream {σ : Type*} (client : RpcClient) (serialId : UInt32)
    (requestData : List UInt8) (onResponse : Option (StreamCallback σ)) (state : σ)
    (inp : CallInput) : StreamResult σ :=
  match client.sendRequest serialId requestData inp with
  | .error client' => ⟨client', false, state⟩
  | .ok arrivals => streamLoop onResponse state arrivals

/-! ## The server's side -/

/-- What a server sends for a unary request: one frame, or something that does
not begin with a valid header. -/
inductive UnaryAnswer where
  | frame (response : RpcResponse) (fits : response.payload.length ≤ maxPayloadSize)
  | invalid (data : List UInt8)
      (bad : tryDecodeFrame data = .malformed ∨ tryDecodeFrame data = .tooLarge)

/-- The bytes of an answer. -/
def UnaryAnswer.bytes : UnaryAnswer → List UInt8
  | .frame response _ =>
      putWord (totalLen response.payload) ++ putWord response.serialId ++ response.payload
  | .invalid data _ => data

/-- What a unary call meets: the server sends one answer, of which any part comes
in, at any time. -/
structure UnaryExchange extends CallInput where
  reply : UnaryAnswer
  part : allBytes answer <+: reply.bytes

/-- A call on the client.  The callback of a stream decides with all responses
it has seen. -/
inductive ClientOp where
  | call (serialId : UInt32) (requestData : List UInt8) (exchange : UnaryExchange)
  | callStream (serialId : UInt32) (requestData : List UInt8)
      (continues : Option (List RpcResponse → Bool)) (inp : CallInput)

/-- A callback that collects what it is given. -/
def collecting (continues : List RpcResponse → Bool) : StreamCallback (List RpcResponse) :=
  fun seen response => (seen ++ [response], continues (seen ++ [response]))

/-- The client after a call. -/
def RpcClient.after (client : RpcClient) : ClientOp → RpcClient
  | .call serialId requestData exchange =>
      (client.call serialId requestData exchange.toCallInput).client
  | .callStream serialId requestData continues inp =>
      (client.callStream serialId requestData (continues.map collecting) [] inp).client

/-! ## Nothing is left behind -/

/-- Nothing is left to come in on a socket that is open. -/
def RpcClient.Quiet (client : RpcClient) : Prop :=
  ∀ pending, client.socket = some pending → allBytes pending = []

theorem quiet_of_closed {client : RpcClient} (h : client.socket = none) : client.Quiet := by
  intro pending hopen
  rw [h] at hopen
  cases hopen

theorem allBytes_append (xs ys : List Arrival) :
    allBytes (xs ++ ys) = allBytes xs ++ allBytes ys := by
  induction xs with
  | nil => rfl
  | cons x xs ih => cases x <;> simp [allBytes, ih]

theorem arrived_part (arrivals : List Arrival) : arrived arrivals <+: allBytes arrivals := by
  induction arrivals with
  | nil => exact List.prefix_rfl
  | cons arrival arrivals ih =>
      cases arrival with
      | piece first more =>
          simp only [arrived, allBytes, List.cons_prefix_cons, true_and]
          exact (List.prefix_append_right_inj more).mpr ih
      | retry => exact ih
      | failed why => exact List.nil_prefix

theorem RpcClient.closed_of_ensureConnected {client client' : RpcClient} {inp : CallInput}
    (h : client.ensureConnected inp = .error client') : client'.socket = none := by
  unfold RpcClient.ensureConnected at h
  cases hsocket : client.socket with
  | some pending =>
      rw [hsocket] at h
      cases h
  | none =>
      cases hconnect : inp.connect with
      | connected =>
          rw [hsocket, hconnect] at h
          cases h
      | failed status error =>
          rw [hsocket, hconnect] at h
          cases h
          rfl

/-- Between calls a quiet client has nothing to come in, connected or not. -/
theorem RpcClient.Quiet.ensureConnected {client : RpcClient} {inp : CallInput}
    {pending : List Arrival} (hquiet : client.Quiet)
    (h : client.ensureConnected inp = .ok pending) : allBytes pending = [] := by
  unfold RpcClient.ensureConnected at h
  cases hsocket : client.socket with
  | some pending' =>
      rw [hsocket] at h
      cases h
      exact hquiet pending hsocket
  | none =>
      cases hconnect : inp.connect with
      | connected =>
          rw [hsocket, hconnect] at h
          cases h
          rfl
      | failed status error =>
          rw [hsocket, hconnect] at h
          cases h

/-- A request that cannot be sent leaves no socket. -/
theorem RpcClient.closed_of_sendRequest {client client' : RpcClient} {serialId : UInt32}
    {requestData : List UInt8} {inp : CallInput}
    (h : client.sendRequest serialId requestData inp = .error client') :
    client'.socket = none := by
  unfold RpcClient.sendRequest at h
  split at h
  · rename_i hconnect
    cases h
    exact RpcClient.closed_of_ensureConnected hconnect
  split at h
  · cases h
    rfl
  split at h
  · cases h
    rfl
  · cases h

/-- Once a request is sent, only its own answer is to come in. -/
theorem RpcClient.Quiet.sendRequest {client : RpcClient} {serialId : UInt32}
    {requestData : List UInt8} {inp : CallInput} {arrivals : List Arrival}
    (hquiet : client.Quiet) (h : client.sendRequest serialId requestData inp = .ok arrivals) :
    allBytes arrivals = allBytes inp.answer := by
  unfold RpcClient.sendRequest at h
  split at h
  · cases h
  rename_i hconnect
  split at h
  · cases h
  split at h
  · cases h
  · cases h
    rw [allBytes_append, hquiet.ensureConnected hconnect, List.nil_append]

/-- However a stream ends, its socket is closed. -/
theorem streamLoop_closed {σ : Type*} (onResponse : Option (StreamCallback σ)) (state : σ)
    (arrivals : List Arrival) : (streamLoop onResponse state arrivals).client.socket = none := by
  induction hlen : (arrived arrivals).length using Nat.strongRecOn
    generalizing state arrivals with
  | ind len ih =>
      subst hlen
      rw [streamLoop]
      split
      · rfl
      rename_i response rest hread
      have hlt := arrived_lt_of_readResponse hread
      split
      · exact ih _ hlt _ _ rfl
      split
      · exact ih _ hlt _ _ rfl
      · rfl

theorem RpcClient.callStream_closed {σ : Type*} (client : RpcClient) (serialId : UInt32)
    (requestData : List UInt8) (onResponse : Option (StreamCallback σ)) (state : σ)
    (inp : CallInput) :
    (client.callStream serialId requestData onResponse state inp).client.socket = none := by
  unfold RpcClient.callStream
  split
  · rename_i hsend
    exact RpcClient.closed_of_sendRequest hsend
  · exact streamLoop_closed onResponse state _

/-- The answer a quiet client reads is the answer to its request, and nothing is
left behind it. -/
theorem paired_of_readResponse {arrivals rest : List Arrival} {response : RpcResponse}
    {reply : UnaryAnswer} (h : readResponse arrivals = (.ok response, rest))
    (hpart : allBytes arrivals <+: reply.bytes) :
    (∃ fits, reply = .frame response fits) ∧ allBytes rest = [] := by
  obtain ⟨n, hdec, -, hall⟩ := complete_of_readResponse h
  -- What has come in is the beginning of the answer, so the answer decodes alike.
  obtain ⟨more, hmore⟩ := (arrived_part arrivals).trans hpart
  have hreply := tryDecodeFrame_append_of_complete hdec more
  rw [hmore] at hreply
  cases reply with
  | frame answer fits =>
      have henc := (tryEncode_eq_some_iff answer.serialId answer.payload _).mpr ⟨fits, rfl⟩
      have hanswer := tryDecodeFrame_tryEncode henc []
      rw [List.append_nil] at hanswer
      obtain ⟨hid, hpayload, hsize⟩ :=
        DecodeStatus.complete.inj (hanswer.symm.trans hreply)
      have hsame : answer = response := by
        cases answer
        cases response
        simp only [RpcResponse.mk.injEq]
        exact ⟨hid, hpayload⟩
      refine ⟨⟨hsame ▸ fits, by simp [hsame]⟩, ?_⟩
      -- The frame is as long as the answer, so no byte of it is left.
      have hle := hpart.length_le
      have hn := (tryEncode_of_complete hdec).1
      have hbytes : (UnaryAnswer.frame answer fits).bytes.length = n := hsize
      rw [hall, List.length_append, List.length_take, hbytes] at hle
      exact List.eq_nil_of_length_eq_zero (by omega)
  | invalid data bad =>
      have hbad : tryDecodeFrame (UnaryAnswer.invalid data bad).bytes = .malformed ∨
          tryDecodeFrame (UnaryAnswer.invalid data bad).bytes = .tooLarge := bad
      rw [hreply] at hbad
      simp at hbad

/-- What a call returns and leaves behind. -/
theorem RpcClient.Quiet.call {client : RpcClient} (hquiet : client.Quiet) (serialId : UInt32)
    (requestData : List UInt8) (exchange : UnaryExchange) :
    let result := client.call serialId requestData exchange.toCallInput
    result.client.Quiet ∧
      (result.ok = true → ∃ response fits, exchange.reply = .frame response fits ∧
        result.responseSerialId = response.serialId ∧ result.responseData = response.payload) ∧
      (result.ok = false → result.responseSerialId = 0 ∧ result.responseData = []) := by
  unfold RpcClient.call
  split
  · rename_i client' hsend
    refine ⟨quiet_of_closed (RpcClient.closed_of_sendRequest hsend), by simp, by simp⟩
  · rename_i arrivals hsend
    split
    · exact ⟨quiet_of_closed rfl, by simp, by simp⟩
    · rename_i response rest hread
      have hpart : allBytes arrivals <+: exchange.reply.bytes := by
        rw [hquiet.sendRequest hsend]
        exact exchange.part
      obtain ⟨⟨fits, hreply⟩, hrest⟩ := paired_of_readResponse hread hpart
      refine ⟨?_, fun _ => ⟨response, fits, hreply, rfl, rfl⟩, by simp⟩
      intro pending hpending
      cases hpending
      exact hrest

theorem RpcClient.Quiet.after {client : RpcClient} (hquiet : client.Quiet) (op : ClientOp) :
    (client.after op).Quiet := by
  cases op with
  | call serialId requestData exchange => exact (hquiet.call serialId requestData exchange).1
  | callStream serialId requestData continues inp =>
      exact quiet_of_closed (RpcClient.callStream_closed _ _ _ _ _ _)

theorem quiet_of_calls (ops : List ClientOp) {client : RpcClient} (hquiet : client.Quiet) :
    (ops.foldl RpcClient.after client).Quiet := by
  induction ops generalizing client with
  | nil => exact hquiet
  | cons op ops ih => exact ih (hquiet.after op)

/-- Whatever has gone before on the client, a call that returns true returns the
server's answer to its own request, and one that returns false returns nothing. -/
theorem response_pairing (ops : List ClientOp) (serialId : UInt32) (requestData : List UInt8)
    (exchange : UnaryExchange) :
    let client := ops.foldl RpcClient.after {}
    let result := client.call serialId requestData exchange.toCallInput
    (result.ok = true → ∃ response fits, exchange.reply = .frame response fits ∧
        result.responseSerialId = response.serialId ∧ result.responseData = response.payload) ∧
      (result.ok = false → result.responseSerialId = 0 ∧ result.responseData = []) := by
  have hquiet : (ops.foldl RpcClient.after {}).Quiet := quiet_of_calls ops (quiet_of_closed rfl)
  exact (hquiet.call serialId requestData exchange).2

/-- The answer `A` comes in after the deadline of its call; the next call uses a
new connection and gets its own answer `B`. -/
example :
    let late := ({} : RpcClient).call 1 []
      { answer := [.failed .deadlineExceeded, .piece 0 [0, 0, 5, 0, 0, 0, 2, 65]] }
    let next := late.client.call 1 [] { answer := [.piece 0 [0, 0, 5, 0], .piece 0 [0, 2, 66]] }
    late.ok = false ∧ next.ok = true ∧ next.responseData = [66] := by
  decide

end Corpcron
