import Corpcron.Lib.Framing
import Corpcron.Rpc.RpcError

/-!
# The connection handler of the TCP server

`clientHandler` is a coroutine with three nested loops: it reads chunks into a
buffer, takes whole frames off the buffer and dispatches them one at a time, and
writes the responses of each request before it looks at the next.  What the
operating system and the dispatcher do is given by lists and functions: the
results of `read` and of `send`, and how each dispatched request ends.

`client_handler_stream` says that none of the buffering can be seen from
outside.  What is dispatched is what `Framing.drain` finds in the bytes received,
and what is sent is the answers in request order.
-/

namespace Corpcron

open Lib

/-! ## Frames as requests -/

/-- The serial id and the payload of a request. -/
structure RpcRequest where
  serialId : UInt32
  payload : List UInt8
deriving DecidableEq

/-- The answer of `tryDecodeFrame` as one about requests. -/
def DecodeStatus.decoded : DecodeStatus → Decoded RpcRequest
  | .complete serialId payload n => .complete ⟨serialId, payload⟩ n
  | .incomplete _ => .incomplete
  | .malformed => .invalid
  | .tooLarge => .invalid

theorem DecodeStatus.decoded_eq_complete {s : DecodeStatus} {request : RpcRequest} {n : Nat}
    (h : s.decoded = .complete request n) : s = .complete request.serialId request.payload n := by
  cases s with
  | complete serialId payload m =>
      obtain ⟨rfl, rfl⟩ := Decoded.complete.inj h
      rfl
  | incomplete m => cases h
  | malformed => cases h
  | tooLarge => cases h

theorem DecodeStatus.decoded_eq_invalid {s : DecodeStatus} (h : s.decoded = .invalid) :
    s = .malformed ∨ s = .tooLarge := by
  cases s with
  | complete serialId payload m => cases h
  | incomplete m => cases h
  | malformed => exact .inl rfl
  | tooLarge => exact .inr rfl

/-- The frame format as a self-delimiting one. -/
def rpcFraming : Framing UInt8 RpcRequest where
  decode data := (tryDecodeFrame data).decoded
  size_pos := by
    intro data request n h
    have hdec := DecodeStatus.decoded_eq_complete h
    obtain ⟨hle, henc⟩ := tryEncode_of_complete hdec
    have hlen := length_of_tryEncode henc
    rw [List.length_take] at hlen
    omega
  size_le := by
    intro data request n h
    exact (tryEncode_of_complete (DecodeStatus.decoded_eq_complete h)).1
  complete_append := by
    intro data request n h more
    have hdec := DecodeStatus.decoded_eq_complete h
    rw [tryDecodeFrame_append_of_complete hdec more]
    rfl
  invalid_append := by
    intro data h more
    rw [tryDecodeFrame_append_of_invalid (DecodeStatus.decoded_eq_invalid h) more]
    exact h

/-! ## Dispatching -/

/-- How `RpcDispatchAwaitable` comes to its result. -/
inductive DispatchOutcome where
  /-- No event descriptor could be made; the text is that of `errnoMessage`. -/
  | eventfdFailed (error : String)
  | noExecutor
  | loopStopping
  /-- `enqueue` refuses the request. -/
  | rejected
  /-- The coroutine is resumed before the request is finished. -/
  | interrupted
  | returned (responses : List RpcResponse)
  /-- `none` for something that is not a `std::exception`. -/
  | threw (what : Option String)

/-- `await_resume`. -/
def DispatchOutcome.awaitResume : DispatchOutcome → List RpcResponse
  | .eventfdFailed error => [.error .internalError error]
  | .noExecutor => [.error .unavailable "RPC executor is not available"]
  | .loopStopping => [.error .unavailable "Event loop is stopping"]
  | .rejected => [.error .resourceExhausted "RPC execution queue is full"]
  | .interrupted => [.error .unavailable "RPC execution interrupted by shutdown"]
  | .returned responses =>
      if responses.isEmpty then [.error .internalError "Empty RPC response"] else responses
  | .threw (some what) => [.error .internalError what]
  | .threw none => [.error .internalError "Unknown RPC execution exception"]

/-- `rpc_result.responses`, after the handler's own check. -/
def DispatchOutcome.responses (outcome : DispatchOutcome) : List RpcResponse :=
  if outcome.awaitResume.isEmpty then [.error .internalError "Empty RPC response"]
  else outcome.awaitResume

/-- How each request ends, by its number on the connection. -/
abbrev Dispatcher := Nat → RpcRequest → DispatchOutcome

/-! ## Sending -/

/-- What a call of `send` does. -/
inductive SendEvent where
  /-- It accepts one byte and up to `more` others. -/
  | accepted (more : Nat)
  /-- `EAGAIN`; the flag is the result of waiting for `EPOLLOUT`. -/
  | wouldBlock (writable : Bool)
  /-- `EINTR`. -/
  | interrupted
  | failed
deriving DecidableEq

/-- The events that end a connection. -/
def SendEvent.fatal : SendEvent → Bool
  | .wouldBlock writable => !writable
  | .failed => true
  | _ => false

/-- What has become of a response. -/
structure SendResult where
  sent : List UInt8
  /-- The events that are left. -/
  rest : List SendEvent
  closed : Bool

/-- The loop `while (sent < response.size())` on what is left of a response.
When the list of events is exhausted, the socket accepts everything. -/
def sendLoop : List UInt8 → List SendEvent → SendResult
  | [], events => ⟨[], events, false⟩
  | response, [] => ⟨response, [], false⟩
  | response, .accepted more :: events =>
      let later := sendLoop (response.drop (more + 1)) events
      { later with sent := response.take (more + 1) ++ later.sent }
  | response, .wouldBlock true :: events => sendLoop response events
  | _, .wouldBlock false :: events => ⟨[], events, true⟩
  | response, .interrupted :: events => sendLoop response events
  | _, .failed :: events => ⟨[], events, true⟩

/-- The frame sent for a response: the response itself, or an error when it does
not fit. -/
def encodeResponse (r : RpcResponse) : Option (List UInt8) :=
  match tryEncode r.serialId r.payload with
  | some frame => some frame
  | none =>
      let e := RpcResponse.error .payloadTooLarge "Response payload too large"
      tryEncode e.serialId e.payload

/-! ## The coroutine -/

/-- The local variables of `clientHandler`, what has been dispatched and sent,
and what the calls of `send` to come do. -/
structure Connection where
  readBuffer : List UInt8 := []
  /-- The handler has left its loops, or is about to. -/
  closed : Bool := false
  dispatched : List RpcRequest := []
  sent : List UInt8 := []
  sends : List SendEvent := []

/-- The loop over the responses of one request. -/
def Connection.respond (c : Connection) : List RpcResponse → Connection
  | [] => c
  | r :: rs =>
      match encodeResponse r with
      | none => { c with closed := true }
      | some frame =>
          let result := sendLoop frame c.sends
          let c' := { c with
            sent := c.sent ++ result.sent, sends := result.rest, closed := result.closed }
          if c'.closed then c' else c'.respond rs

@[simp] theorem Connection.respond_readBuffer (c : Connection) (rs : List RpcResponse) :
    (c.respond rs).readBuffer = c.readBuffer := by
  induction rs generalizing c with
  | nil => rfl
  | cons r rs ih =>
      rw [Connection.respond]
      cases encodeResponse r with
      | none => rfl
      | some frame =>
          dsimp only
          split
          · rfl
          · rw [ih]

/-- Take a request off the buffer and answer it. -/
def Connection.handle (dispatcher : Dispatcher) (c : Connection) (request : RpcRequest)
    (frameSize : Nat) : Connection :=
  let c' := { c with
    readBuffer := c.readBuffer.drop frameSize, dispatched := c.dispatched ++ [request] }
  c'.respond (dispatcher c.dispatched.length request).responses

/-- The loop over the frames in the buffer. -/
def Connection.process (dispatcher : Dispatcher) (c : Connection) : Connection :=
  match _h : tryDecodeFrame c.readBuffer with
  | .incomplete _ => c
  | .malformed => { c with closed := true }
  | .tooLarge => { c with closed := true }
  | .complete serialId payload frameSize =>
      let c' := c.handle dispatcher ⟨serialId, payload⟩ frameSize
      if c'.closed then c' else c'.process dispatcher
termination_by c.readBuffer.length
decreasing_by
  obtain ⟨hle, henc⟩ := tryEncode_of_complete _h
  have hlen := length_of_tryEncode henc
  rw [List.length_take] at hlen
  simp only [Connection.handle, Connection.respond_readBuffer, List.length_drop]
  omega

/-- The chunks `read` can return. -/
abbrev ReadChunk := { bytes : List UInt8 // 0 < bytes.length ∧ bytes.length ≤ 4096 }

/-- What a turn of the outer loop finds. -/
inductive ReadEvent where
  | chunk (bytes : ReadChunk)
  /-- `EINTR` or `EAGAIN`. -/
  | retry
  /-- The peer has closed the connection. -/
  | eof
  | failed
  /-- The loop is stopping, or waiting for `EPOLLIN` fails. -/
  | stopping

/-- `clientHandler`.  When the list of events is exhausted, the handler waits
for the peer. -/
def Connection.clientHandler (dispatcher : Dispatcher) (c : Connection) :
    List ReadEvent → Connection
  | [] => c
  | .chunk bytes :: events =>
      let c' := { c with readBuffer := c.readBuffer ++ bytes.val }.process dispatcher
      if c'.closed then c' else c'.clientHandler dispatcher events
  | .retry :: events => c.clientHandler dispatcher events
  | .eof :: _ => { c with closed := true }
  | .failed :: _ => { c with closed := true }
  | .stopping :: _ => { c with closed := true }

/-! ## What a connection is for -/

/-- The bytes received until the peer closes or reading ends. -/
def receivedBytes : List ReadEvent → List UInt8
  | .chunk bytes :: events => bytes.val ++ receivedBytes events
  | .retry :: events => receivedBytes events
  | _ => []

/-- Whether reading comes to an end. -/
def readingEnds : List ReadEvent → Bool
  | [] => false
  | .chunk _ :: events => readingEnds events
  | .retry :: events => readingEnds events
  | _ => true

/-- The response that reaches the peer: an error in place of one that does not
fit. -/
def RpcResponse.delivered (r : RpcResponse) : RpcResponse :=
  if r.payload.length ≤ maxPayloadSize then r
  else .error .payloadTooLarge "Response payload too large"

/-- The frame of a response that fits. -/
def RpcResponse.frame (r : RpcResponse) : List UInt8 :=
  (tryEncode r.serialId r.payload).getD []

/-- The bytes of the responses to one request. -/
def answerBytes (responses : List RpcResponse) : List UInt8 :=
  responses.flatMap fun r => r.delivered.frame

/-- The bytes of the answers to requests, the first of which has number `k`. -/
def answers (dispatcher : Dispatcher) : Nat → List RpcRequest → List UInt8
  | _, [] => []
  | k, request :: requests =>
      answerBytes (dispatcher k request).responses ++ answers dispatcher (k + 1) requests

theorem answers_append (dispatcher : Dispatcher) (k : Nat) (xs ys : List RpcRequest) :
    answers dispatcher k (xs ++ ys) =
      answers dispatcher k xs ++ answers dispatcher (k + xs.length) ys := by
  induction xs generalizing k with
  | nil => rfl
  | cons x xs ih =>
      have hnumber : k + 1 + xs.length = k + (xs.length + 1) := by omega
      simp only [List.cons_append, answers, ih, List.append_assoc, List.length_cons, hnumber]

/-- Every request gets an answer. -/
theorem DispatchOutcome.responses_ne_nil (outcome : DispatchOutcome) :
    outcome.responses ≠ [] := by
  unfold DispatchOutcome.responses
  split
  · simp
  · rename_i hne
    simpa using hne

theorem DispatchOutcome.responses_returned {rs : List RpcResponse} (h : rs ≠ []) :
    (DispatchOutcome.returned rs).responses = rs := by
  have hne : rs.isEmpty = false := by simpa using h
  simp [DispatchOutcome.responses, DispatchOutcome.awaitResume, hne]

theorem RpcResponse.delivered_fits (r : RpcResponse) :
    r.delivered.payload.length ≤ maxPayloadSize := by
  unfold RpcResponse.delivered
  split
  · assumption
  · exact error_fits _ _ (by decide)

theorem RpcResponse.tryEncode_of_fits {r : RpcResponse}
    (hfit : r.payload.length ≤ maxPayloadSize) :
    tryEncode r.serialId r.payload = some r.frame := by
  rw [(tryEncode_eq_some_iff r.serialId r.payload _).mpr ⟨hfit, rfl⟩, RpcResponse.frame,
    (tryEncode_eq_some_iff r.serialId r.payload _).mpr ⟨hfit, rfl⟩]
  rfl

/-- What the handler sends for a response; it never gives up on one. -/
theorem encodeResponse_eq (r : RpcResponse) : encodeResponse r = some r.delivered.frame := by
  have hfits := RpcResponse.tryEncode_of_fits r.delivered_fits
  by_cases hfit : r.payload.length ≤ maxPayloadSize
  · have hsame : r.delivered = r := if_pos hfit
    rw [hsame] at hfits ⊢
    rw [encodeResponse, hfits]
  · have herror : r.delivered = .error .payloadTooLarge "Response payload too large" :=
      if_neg hfit
    have hnone := (tryEncode_eq_none_iff r.serialId r.payload).mpr (Nat.lt_of_not_le hfit)
    rw [herror] at hfits ⊢
    rw [encodeResponse, hnone]
    exact hfits

/-! ## The loops, from the inside out -/

/-- Without a fatal event a response is sent whole. -/
theorem sendLoop_eq (response : List UInt8) (events : List SendEvent)
    (hsends : ∀ e ∈ events, e.fatal = false) :
    ∃ rest, (∀ e ∈ rest, e.fatal = false) ∧ sendLoop response events = ⟨response, rest, false⟩ := by
  induction events generalizing response with
  | nil => cases response <;> exact ⟨[], by simp, rfl⟩
  | cons event events ih =>
      have hlater : ∀ e ∈ events, e.fatal = false := fun e he => hsends e (.tail _ he)
      have hevent := hsends event (.head _)
      cases response with
      | nil => exact ⟨event :: events, hsends, rfl⟩
      | cons b bytes =>
          cases event with
          | accepted more =>
              obtain ⟨rest, hrest, hloop⟩ := ih ((b :: bytes).drop (more + 1)) hlater
              refine ⟨rest, hrest, ?_⟩
              rw [sendLoop, hloop, List.take_append_drop]
              simp
          | wouldBlock writable =>
              cases writable with
              | true => exact ih (b :: bytes) hlater
              | false => cases hevent
          | interrupted => exact ih (b :: bytes) hlater
          | failed => cases hevent

/-- Without a fatal event all responses to a request are sent. -/
theorem Connection.respond_eq (c : Connection) (rs : List RpcResponse)
    (hopen : c.closed = false) (hsends : ∀ e ∈ c.sends, e.fatal = false) :
    ∃ rest, (∀ e ∈ rest, e.fatal = false) ∧
      c.respond rs = { c with sent := c.sent ++ answerBytes rs, sends := rest } := by
  induction rs generalizing c with
  | nil =>
      refine ⟨c.sends, hsends, ?_⟩
      simp [Connection.respond, answerBytes]
  | cons r rs ih =>
      obtain ⟨rest, hrest, hloop⟩ := sendLoop_eq r.delivered.frame c.sends hsends
      obtain ⟨rest', hrest', heq⟩ :=
        ih { c with sent := c.sent ++ r.delivered.frame, sends := rest } hopen hrest
      refine ⟨rest', hrest', ?_⟩
      rw [Connection.respond, encodeResponse_eq]
      simp only [hloop, Bool.false_eq_true, if_false]
      rw [← hopen, heq]
      simp [answerBytes]

theorem Connection.process_complete (dispatcher : Dispatcher) (c : Connection)
    {request : RpcRequest} {n : Nat}
    (h : tryDecodeFrame c.readBuffer = .complete request.serialId request.payload n)
    (hopen : (c.handle dispatcher request n).closed = false) :
    c.process dispatcher = (c.handle dispatcher request n).process dispatcher := by
  rw [Connection.process]
  split <;> simp_all

theorem Connection.process_incomplete (dispatcher : Dispatcher) (c : Connection) {n : Nat}
    (h : tryDecodeFrame c.readBuffer = .incomplete n) : c.process dispatcher = c := by
  rw [Connection.process]
  split <;> simp_all

theorem Connection.process_invalid (dispatcher : Dispatcher) (c : Connection)
    (h : tryDecodeFrame c.readBuffer = .malformed ∨ tryDecodeFrame c.readBuffer = .tooLarge) :
    c.process dispatcher = { c with closed := true } := by
  rw [Connection.process]
  split <;> simp_all

/-- The inner loop takes exactly the frames off the buffer that are there. -/
theorem Connection.process_eq (dispatcher : Dispatcher) (c : Connection)
    (hopen : c.closed = false) (hsends : ∀ e ∈ c.sends, e.fatal = false) :
    ∃ rest, (∀ e ∈ rest, e.fatal = false) ∧
      c.process dispatcher =
        { readBuffer := (rpcFraming.drain c.readBuffer).rest
          closed := (rpcFraming.drain c.readBuffer).invalid
          dispatched := c.dispatched ++ (rpcFraming.drain c.readBuffer).frames
          sent := c.sent ++
            answers dispatcher c.dispatched.length (rpcFraming.drain c.readBuffer).frames
          sends := rest } := by
  generalize hbuffer : c.readBuffer = data
  induction data using Framing.drain_induction (F := rpcFraming) generalizing c with
  | complete data request n hdec ih =>
      have hstatus : tryDecodeFrame c.readBuffer =
          .complete request.serialId request.payload n := by
        rw [hbuffer]
        exact DecodeStatus.decoded_eq_complete hdec
      obtain ⟨rest, hrest, hresp⟩ := Connection.respond_eq
        { c with readBuffer := c.readBuffer.drop n, dispatched := c.dispatched ++ [request] }
        (dispatcher c.dispatched.length request).responses hopen hsends
      have hhandle : c.handle dispatcher request n =
          { readBuffer := data.drop n
            closed := false
            dispatched := c.dispatched ++ [request]
            sent := c.sent ++ answerBytes (dispatcher c.dispatched.length request).responses
            sends := rest } := by
        rw [Connection.handle, hresp, hbuffer, hopen]
      obtain ⟨rest', hrest', heq⟩ := ih (c.handle dispatcher request n)
        (by rw [hhandle]) (by rw [hhandle]; exact hrest) (by rw [hhandle])
      refine ⟨rest', hrest', ?_⟩
      rw [Connection.process_complete dispatcher c hstatus (by rw [hhandle]), heq, hhandle,
        Framing.drain_complete hdec]
      simp only [answers, List.append_assoc, List.singleton_append, List.length_append,
        List.length_singleton]
  | incomplete data hdec =>
      refine ⟨c.sends, hsends, ?_⟩
      cases hstatus : tryDecodeFrame data with
      | incomplete n =>
          rw [← hbuffer] at hstatus
          rw [Connection.process_incomplete dispatcher c hstatus, Framing.drain_incomplete hdec,
            ← hbuffer, ← hopen]
          simp [answers]
      | complete serialId payload n => simp [rpcFraming, hstatus, DecodeStatus.decoded] at hdec
      | malformed => simp [rpcFraming, hstatus, DecodeStatus.decoded] at hdec
      | tooLarge => simp [rpcFraming, hstatus, DecodeStatus.decoded] at hdec
  | invalid data hdec =>
      refine ⟨c.sends, hsends, ?_⟩
      have hstatus := DecodeStatus.decoded_eq_invalid hdec
      rw [← hbuffer] at hstatus
      rw [Connection.process_invalid dispatcher c hstatus, Framing.drain_invalid hdec, ← hbuffer]
      simp [answers]

/-- The outer loop, from any moment at which it is about to read: the buffer
holds no whole frame, and what happens from then on is determined by the buffer
and the bytes still to come. -/
theorem Connection.clientHandler_eq (dispatcher : Dispatcher) (c : Connection)
    (events : List ReadEvent) (hopen : c.closed = false)
    (hsends : ∀ e ∈ c.sends, e.fatal = false)
    (hidle : rpcFraming.decode c.readBuffer = .incomplete) :
    (c.clientHandler dispatcher events).dispatched =
        c.dispatched ++ (rpcFraming.drain (c.readBuffer ++ receivedBytes events)).frames ∧
      (c.clientHandler dispatcher events).sent =
        c.sent ++ answers dispatcher c.dispatched.length
          (rpcFraming.drain (c.readBuffer ++ receivedBytes events)).frames ∧
      (c.clientHandler dispatcher events).closed =
        ((rpcFraming.drain (c.readBuffer ++ receivedBytes events)).invalid ||
          readingEnds events) := by
  have hnone := Framing.drain_incomplete hidle
  induction events generalizing c with
  | nil => simp [Connection.clientHandler, receivedBytes, readingEnds, hnone, answers, hopen]
  | cons event events ih =>
      cases event with
      | chunk bytes =>
          obtain ⟨rest, hrest, hproc⟩ := Connection.process_eq dispatcher
            { c with readBuffer := c.readBuffer ++ bytes.val } hopen hsends
          have hstream : c.readBuffer ++ receivedBytes (.chunk bytes :: events) =
              (c.readBuffer ++ bytes.val) ++ receivedBytes events := by
            rw [receivedBytes, List.append_assoc]
          rw [hstream, Connection.clientHandler, hproc, readingEnds]
          cases hinvalid : (rpcFraming.drain (c.readBuffer ++ bytes.val)).invalid with
          | true =>
              rw [Framing.drain_append_of_invalid _ _ hinvalid]
              simp
          | false =>
              obtain ⟨hdisp, hsent, hclosed⟩ := ih
                { readBuffer := (rpcFraming.drain (c.readBuffer ++ bytes.val)).rest
                  closed := false
                  dispatched :=
                    c.dispatched ++ (rpcFraming.drain (c.readBuffer ++ bytes.val)).frames
                  sent := c.sent ++ answers dispatcher c.dispatched.length
                    (rpcFraming.drain (c.readBuffer ++ bytes.val)).frames
                  sends := rest } rfl hrest (Framing.decode_rest _ hinvalid)
                (Framing.drain_incomplete (Framing.decode_rest _ hinvalid))
              rw [Framing.drain_append _ _ hinvalid]
              simp only [Bool.false_eq_true, if_false]
              rw [hdisp, hsent, hclosed, answers_append, List.length_append]
              simp only [List.append_assoc, true_and]
      | retry => exact ih c hopen hsends hidle hnone
      | eof => simp [Connection.clientHandler, receivedBytes, readingEnds, hnone, answers]
      | failed => simp [Connection.clientHandler, receivedBytes, readingEnds, hnone, answers]
      | stopping => simp [Connection.clientHandler, receivedBytes, readingEnds, hnone, answers]

end Corpcron
