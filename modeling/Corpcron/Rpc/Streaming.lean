import Corpcron.Net.ClientHandler
import Corpcron.Rpc.ConnectionReuse
import Mathlib.Data.List.ModifyLast
import Mathlib.Data.List.TakeWhile

/-!
# Server streaming

The generated bindings (`generate_rpc_bindings.py`) have a skeleton on the
server and a stub on the client.  The skeleton turns the list a handler returns
into responses and marks the last of them; `clientHandler` frames them; the
stub's callback takes the frames apart again and stops at the marked one.

Message types are given by their generated functions.  Of the protobuf library
nothing is used but that parsing undoes serialization (`ParseUndoes`).

`server_streaming` follows a list through all three layers.
-/

namespace Corpcron

open Lib

/-! ## Message types -/

/-- `SerializeToString` and `ParseFromString` of a message type. -/
structure MessageType (M : Type*) where
  serialize : M → Option (List UInt8)
  parse : List UInt8 → Option M

/-- Parsing undoes serialization. -/
def MessageType.ParseUndoes {M : Type*} (T : MessageType M) : Prop :=
  ∀ m, (T.serialize m).bind T.parse = some m

/-- A request type, with the field `auth_token`. -/
structure RequestType (Q : Type*) extends MessageType Q where
  authToken : Q → String
  setAuthToken : String → Q → Q

/-- A response type of a stream, with the fields `success` and
`end_of_stream`. -/
structure StreamResponseType (M : Type*) extends MessageType M where
  /-- A message without any field set. -/
  blank : M
  setSuccess : Bool → M → M
  endOfStream : M → Bool
  setEndOfStream : Bool → M → M
  endOfStream_set : ∀ b m, endOfStream (setEndOfStream b m) = b
  set_set : ∀ b b' m, setEndOfStream b (setEndOfStream b' m) = setEndOfStream b m

/-- A method of the service with `returns (stream ...)`. -/
structure StreamMethod (Q M : Type*) where
  request : RequestType Q
  response : StreamResponseType M
  requestSerialId : UInt32
  responseSerialId : UInt32
  notError : responseSerialId ≠ rpcErrorSerialId

variable {Q M : Type*}

/-! ## The skeleton -/

/-- Clear the end marker everywhere and set it on the last response. -/
def StreamResponseType.markEnd (T : StreamResponseType M) (responses : List M) : List M :=
  (responses.map (T.setEndOfStream false)).modifyLast (T.setEndOfStream true)

/-- What `registerServerStream` registers for a handler. -/
def StreamMethod.serve (method : StreamMethod Q M) (handler : Q → List M)
    (payload : List UInt8) : List RpcResponse :=
  match method.request.parse payload with
  | none => [.error .badRequest "parse request failed"]
  | some request =>
      let T := method.response
      let responses :=
        if (handler request).isEmpty then [T.setEndOfStream true (T.setSuccess true T.blank)]
        else handler request
      match (T.markEnd responses).mapM T.serialize with
      | none => [.error .internalError "serialize response failed"]
      | some payloads => payloads.map fun payload => ⟨method.responseSerialId, payload⟩

/-- A dispatcher in which the method is registered. -/
def StreamMethod.dispatcher (method : StreamMethod Q M) (handler : Q → List M)
    (other : Dispatcher) : Dispatcher := fun k request =>
  if request.serialId = method.requestSerialId then
    .returned (method.serve handler request.payload)
  else other k request

/-! ## The stub -/

/-- What the callback of the stub has seen. -/
structure StubState (M : Type*) where
  /-- What the user's callback was called with. -/
  received : List M := []
  sawEnd : Bool := false
  error : String := ""

/-- The callback the stub hands to `RpcClient::callStream`.  The user's callback
answers with all it was called with. -/
def StreamMethod.callback (method : StreamMethod Q M) (parseError : List UInt8 → Option RpcError)
    (onResponse : List M → Bool) : StreamCallback (StubState M) := fun state response =>
  if response.serialId = rpcErrorSerialId then
    match parseError response.payload with
    | some e => ({ state with error := e.message }, false)
    | none => ({ state with error := "parse RpcError failed" }, false)
  else if response.serialId ≠ method.responseSerialId then
    ({ state with
        error := "unexpected stream response serial_id: " ++ toString response.serialId.toNat },
      false)
  else
    match method.response.parse response.payload with
    | none => ({ state with error := "parse stream response failed" }, false)
    | some m =>
        let state' : StubState M :=
          { state with received := state.received ++ [m], sawEnd := method.response.endOfStream m }
        (state', onResponse state'.received && !state'.sawEnd)

/-- What the stub returns, with the client after the call. -/
structure StubResult (M : Type*) where
  client : RpcClient
  received : List M
  error : String
  ok : Bool

/-- The request with the token of the stub. -/
def RequestType.authorized (R : RequestType Q) (token : String) (request : Q) : Q :=
  if token ≠ "" ∧ R.authToken request = "" then R.setAuthToken token request else request

/-- `callStream` of the stub. -/
def StreamMethod.callStream (method : StreamMethod Q M)
    (parseError : List UInt8 → Option RpcError) (token : String) (client : RpcClient)
    (request : Q) (onResponse : List M → Bool) (inp : CallInput) : StubResult M :=
  match method.request.serialize (method.request.authorized token request) with
  | none => ⟨client, [], "serialize request failed", false⟩
  | some payload =>
      let result := client.callStream method.requestSerialId payload
        (some (method.callback parseError onResponse)) {} inp
      let error :=
        if !result.ok && result.state.error = "" then "rpc stream transport failed"
        else result.state.error
      ⟨result.client, result.state.received, error, result.ok && result.state.sawEnd⟩

/-! ## What a stream is for -/

/-- What the user's callback is to see: the list of the handler with the end
marker on its last message only, or one successful message for an empty list. -/
def StreamResponseType.streamed (T : StreamResponseType M) : List M → List M
  | [] => [T.setEndOfStream true (T.setSuccess true T.blank)]
  | [m] => [T.setEndOfStream true m]
  | m :: m' :: rest => T.setEndOfStream false m :: T.streamed (m' :: rest)

/-- The serialized message. -/
def MessageType.wire (T : MessageType M) (m : M) : List UInt8 := (T.serialize m).getD []

/-- Whether a message fits in a frame. -/
def MessageType.fits (T : MessageType M) (m : M) : Bool :=
  decide ((T.wire m).length ≤ maxPayloadSize)

theorem MessageType.ParseUndoes.serialize {T : MessageType M} (h : T.ParseUndoes) (m : M) :
    T.serialize m = some (T.wire m) := by
  have hm := h m
  cases hs : T.serialize m with
  | none =>
      rw [hs] at hm
      cases hm
  | some payload => simp [MessageType.wire, hs]

theorem MessageType.ParseUndoes.parse {T : MessageType M} (h : T.ParseUndoes) (m : M) :
    T.parse (T.wire m) = some m := by
  have hm := h m
  rw [h.serialize m] at hm
  exact hm

/-! ## The skeleton's list -/

theorem StreamResponseType.markEnd_cons (T : StreamResponseType M) (m m' : M) (rest : List M) :
    T.markEnd (m :: m' :: rest) = T.setEndOfStream false m :: T.markEnd (m' :: rest) := by
  have h := List.modifyLast_append_of_right_ne_nil (T.setEndOfStream true)
    [T.setEndOfStream false m] ((m' :: rest).map (T.setEndOfStream false)) (by simp)
  exact h

/-- The marked list is the one the callback is to see. -/
theorem StreamResponseType.markEnd_eq (T : StreamResponseType M) (responses : List M)
    (h : responses ≠ []) : T.markEnd responses = T.streamed responses := by
  induction responses with
  | nil => exact absurd rfl h
  | cons m rest ih =>
      cases rest with
      | nil =>
          show [T.setEndOfStream true (T.setEndOfStream false m)] = [T.setEndOfStream true m]
          rw [T.set_set]
      | cons m' rest =>
          rw [T.markEnd_cons, ih (by simp)]
          rfl

/-- Only the last message of a stream is marked. -/
theorem StreamResponseType.exists_last (T : StreamResponseType M) (xs : List M) :
    ∃ init last, T.streamed xs = init ++ [last] ∧
      (∀ m ∈ init, T.endOfStream m = false) ∧ T.endOfStream last = true := by
  match xs with
  | [] => exact ⟨[], _, rfl, by simp, T.endOfStream_set _ _⟩
  | [m] => exact ⟨[], _, rfl, by simp, T.endOfStream_set _ _⟩
  | m :: m' :: rest =>
      obtain ⟨init, last, heq, hinit, hlast⟩ := T.exists_last (m' :: rest)
      refine ⟨T.setEndOfStream false m :: init, last, ?_, ?_, hlast⟩
      · rw [StreamResponseType.streamed, heq]
        rfl
      · intro x hx
        rcases List.mem_cons.mp hx with rfl | hx
        · exact T.endOfStream_set _ _
        · exact hinit x hx

theorem MessageType.ParseUndoes.mapM {T : MessageType M} (h : T.ParseUndoes) (ms : List M) :
    ms.mapM T.serialize = some (ms.map T.wire) := by
  induction ms with
  | nil => rfl
  | cons m ms ih => simp [List.mapM_cons, h.serialize m, ih]

/-- The responses of the skeleton. -/
theorem StreamMethod.serve_eq (method : StreamMethod Q M) (handler : Q → List M)
    {payload : List UInt8} {request : Q} (hparse : method.request.parse payload = some request)
    (hresponse : method.response.ParseUndoes) :
    method.serve handler payload = (method.response.streamed (handler request)).map
      fun m => ⟨method.responseSerialId, method.response.wire m⟩ := by
  have hmarked : method.response.markEnd
      (if (handler request).isEmpty then
        [method.response.setEndOfStream true
          (method.response.setSuccess true method.response.blank)]
      else handler request) = method.response.streamed (handler request) := by
    by_cases hempty : handler request = []
    · rw [hempty]
      exact (method.response.markEnd_eq _ (by simp)).trans (by
        simp [StreamResponseType.streamed, method.response.set_set])
    · have hfalse : (handler request).isEmpty = false := by simpa using hempty
      rw [hfalse]
      exact method.response.markEnd_eq _ hempty
  simp only [StreamMethod.serve, hparse, hmarked, hresponse.mapM, List.map_map]
  rfl

/-! ## The bytes on the connection -/

/-- The frames of a stream, the oversized messages replaced. -/
def StreamMethod.frames (method : StreamMethod Q M) (ms : List M) : List UInt8 :=
  answerBytes (ms.map fun m => ⟨method.responseSerialId, method.response.wire m⟩)

theorem StreamMethod.frames_cons_of_fits (method : StreamMethod Q M) {m : M}
    (hfit : method.response.fits m = true) (ms : List M) :
    method.frames (m :: ms) =
      (⟨method.responseSerialId, method.response.wire m⟩ : RpcResponse).frame ++
        method.frames ms := by
  have hsame : (⟨method.responseSerialId, method.response.wire m⟩ : RpcResponse).delivered =
      ⟨method.responseSerialId, method.response.wire m⟩ := if_pos (of_decide_eq_true hfit)
  simp [StreamMethod.frames, answerBytes, hsame]

theorem StreamMethod.frames_cons_of_not_fits (method : StreamMethod Q M) {m : M}
    (hfit : method.response.fits m = false) (ms : List M) :
    method.frames (m :: ms) =
      (RpcResponse.error .payloadTooLarge "Response payload too large").frame ++
        method.frames ms := by
  have herror : (⟨method.responseSerialId, method.response.wire m⟩ : RpcResponse).delivered =
      .error .payloadTooLarge "Response payload too large" := if_neg (of_decide_eq_false hfit)
  simp [StreamMethod.frames, answerBytes, herror]

/-! ## The stub's loop -/

theorem readResponse_frame {arrivals : List Arrival} {r : RpcResponse} {more : List UInt8}
    (hfit : r.payload.length ≤ maxPayloadSize) (h : arrived arrivals = r.frame ++ more) :
    ∃ rest, readResponse arrivals = (.ok r, rest) ∧ arrived rest = more := by
  have hdec := tryDecodeFrame_tryEncode (RpcResponse.tryEncode_of_fits hfit) more
  rw [← h] at hdec
  obtain ⟨rest, hread, harr, -⟩ := readResponse_complete hdec
  refine ⟨rest, hread, ?_⟩
  rw [harr, h, List.drop_left]

theorem streamLoop_continue {σ : Type*} {callback : StreamCallback σ} {state state' : σ}
    {arrivals rest : List Arrival} {response : RpcResponse}
    (hread : readResponse arrivals = (.ok response, rest))
    (hcall : callback state response = (state', true)) :
    streamLoop (some callback) state arrivals = streamLoop (some callback) state' rest := by
  rw [streamLoop]
  split <;> simp_all

theorem streamLoop_stop {σ : Type*} {callback : StreamCallback σ} {state state' : σ}
    {arrivals rest : List Arrival} {response : RpcResponse}
    (hread : readResponse arrivals = (.ok response, rest))
    (hcall : callback state response = (state', false)) :
    streamLoop (some callback) state arrivals = ⟨{ socket := none }, true, state'⟩ := by
  rw [streamLoop]
  split <;> simp_all

section Stub

variable (method : StreamMethod Q M) (parseError : List UInt8 → Option RpcError)

/-- The stub's callback with a user's callback that always wants more. -/
def StreamMethod.listening : StreamCallback (StubState M) :=
  method.callback parseError fun _ => true

variable {method}

theorem StreamMethod.listening_message (hresponse : method.response.ParseUndoes)
    (state : StubState M) (m : M) :
    method.listening parseError state ⟨method.responseSerialId, method.response.wire m⟩ =
      ({ state with
          received := state.received ++ [m], sawEnd := method.response.endOfStream m },
        !method.response.endOfStream m) := by
  simp [StreamMethod.listening, StreamMethod.callback, method.notError, hresponse.parse m]

/-- Messages without the end marker are passed on one after the other. -/
theorem StreamMethod.streamLoop_unmarked (hresponse : method.response.ParseUndoes)
    (ms : List M) (state : StubState M) (arrivals : List Arrival) (more : List M)
    (hfit : ∀ m ∈ ms, method.response.fits m = true)
    (hmark : ∀ m ∈ ms, method.response.endOfStream m = false) (hstate : state.sawEnd = false)
    (harr : arrived arrivals = method.frames (ms ++ more)) :
    ∃ rest, arrived rest = method.frames more ∧
      streamLoop (some (method.listening parseError)) state arrivals =
        streamLoop (some (method.listening parseError))
          { state with received := state.received ++ ms } rest := by
  induction ms generalizing state arrivals with
  | nil => exact ⟨arrivals, harr, by simp⟩
  | cons m ms ih =>
      have hm := hfit m (.head _)
      rw [List.cons_append, method.frames_cons_of_fits hm] at harr
      obtain ⟨rest, hread, hrest⟩ := readResponse_frame
        (r := ⟨method.responseSerialId, method.response.wire m⟩) (of_decide_eq_true hm) harr
      have hcall := StreamMethod.listening_message parseError hresponse state m
      rw [hmark m (.head _)] at hcall
      obtain ⟨rest', hrest', hloop⟩ := ih
        { state with received := state.received ++ [m], sawEnd := false } rest
        (fun x hx => hfit x (.tail _ hx)) (fun x hx => hmark x (.tail _ hx)) rfl hrest
      refine ⟨rest', hrest', ?_⟩
      rw [streamLoop_continue hread hcall, hloop]
      simp [hstate]

/-- The whole stream fits: it is passed on whole, and its end is seen. -/
theorem StreamMethod.streamLoop_of_fits (hresponse : method.response.ParseUndoes) (xs : List M)
    (arrivals : List Arrival)
    (harr : arrived arrivals = method.frames (method.response.streamed xs))
    (hfit : ∀ m ∈ method.response.streamed xs, method.response.fits m = true) :
    streamLoop (some (method.listening parseError)) {} arrivals =
      ⟨{ socket := none }, true, { received := method.response.streamed xs, sawEnd := true }⟩ := by
  obtain ⟨init, last, hstream, hinit, hlast⟩ := method.response.exists_last xs
  rw [hstream] at harr hfit ⊢
  have hfitLast := hfit last (by simp)
  obtain ⟨rest, hrest, hloop⟩ := StreamMethod.streamLoop_unmarked parseError hresponse init {}
    arrivals [last] (fun m hm => hfit m (by simp [hm])) hinit rfl harr
  rw [method.frames_cons_of_fits hfitLast] at hrest
  obtain ⟨rest', hread, -⟩ := readResponse_frame
    (r := ⟨method.responseSerialId, method.response.wire last⟩) (of_decide_eq_true hfitLast) hrest
  have hcall := StreamMethod.listening_message parseError hresponse
    { received := [] ++ init } last
  rw [hlast] at hcall
  rw [hloop, streamLoop_stop hread hcall]
  simp

/-- A message does not fit: the messages before it are passed on, and the error
in its place ends the stream. -/
theorem StreamMethod.streamLoop_of_oversized (hresponse : method.response.ParseUndoes)
    (herror : ∀ e : RpcError, parseError e.serialize = some e) (xs : List M)
    (arrivals : List Arrival)
    (harr : arrived arrivals = method.frames (method.response.streamed xs))
    (hfit : ¬ ∀ m ∈ method.response.streamed xs, method.response.fits m = true) :
    streamLoop (some (method.listening parseError)) {} arrivals =
      ⟨{ socket := none }, true,
        { received := (method.response.streamed xs).takeWhile method.response.fits
          error := "Response payload too large" }⟩ := by
  obtain ⟨init, last, hstream, hinit, -⟩ := method.response.exists_last xs
  set stream := method.response.streamed xs
  set before := stream.takeWhile method.response.fits with hbefore
  obtain ⟨m, after, hafter⟩ : ∃ m after, stream.dropWhile method.response.fits = m :: after := by
    cases hdrop : stream.dropWhile method.response.fits with
    | nil => exact absurd (List.dropWhile_eq_nil_iff.mp hdrop) hfit
    | cons m after => exact ⟨m, after, rfl⟩
  have hsplit : before ++ m :: after = stream := by
    rw [← hafter]
    exact List.takeWhile_append_dropWhile
  have hm : method.response.fits m = false := by
    have hhead := List.head?_dropWhile_not method.response.fits stream
    rw [hafter] at hhead
    exact hhead
  -- The messages before `m` are not the last one.
  have hunmarked : ∀ x ∈ before, method.response.endOfStream x = false := by
    have hdrop := congrArg List.dropLast (hsplit.trans hstream)
    rw [List.dropLast_append_cons, List.dropLast_concat] at hdrop
    intro x hx
    exact hinit x (by rw [← hdrop]; exact List.mem_append_left _ hx)
  have hfits : ∀ x ∈ before, method.response.fits x = true := by
    intro x hx
    exact List.mem_takeWhile_imp hx
  rw [← hsplit] at harr
  obtain ⟨rest, hrest, hloop⟩ := StreamMethod.streamLoop_unmarked parseError hresponse before {}
    arrivals (m :: after) hfits hunmarked rfl harr
  rw [method.frames_cons_of_not_fits hm] at hrest
  obtain ⟨rest', hread, -⟩ := readResponse_frame (error_fits _ _ (by decide)) hrest
  have hcall : method.listening parseError { received := [] ++ before }
      (.error .payloadTooLarge "Response payload too large") =
      ({ received := [] ++ before, error := "Response payload too large" }, false) := by
    simp [StreamMethod.listening, StreamMethod.callback, RpcResponse.error, herror]
  rw [hloop, streamLoop_stop hread hcall]
  simp

end Stub

/-! ## From the handler to the user's callback -/

/-- A connection that receives one frame dispatches one request. -/
theorem drain_frame {r : RpcRequest} {frame : List UInt8}
    (h : tryEncode r.serialId r.payload = some frame) :
    rpcFraming.drain frame = ⟨[r], [], false⟩ := by
  have hdec := tryDecodeFrame_tryEncode h []
  rw [List.append_nil] at hdec
  have hframe : rpcFraming.decode frame = .complete r frame.length := by
    simp [rpcFraming, hdec, DecodeStatus.decoded]
  have hempty : rpcFraming.decode [] = .incomplete := rfl
  rw [Framing.drain_complete hframe, List.drop_length, Framing.drain_incomplete hempty]

/-- The server's side: what it sends for a request of the method. -/
theorem StreamMethod.sent_eq (method : StreamMethod Q M) (handler : Q → List M)
    (other : Dispatcher) {q : Q} (server : Connection) (events : List ReadEvent)
    (hrequest : method.request.ParseUndoes) (hresponse : method.response.ParseUndoes)
    (hopen : server.closed = false) (hbuffer : server.readBuffer = [])
    (hsends : ∀ e ∈ server.sends, e.fatal = false)
    (hreceived : tryEncode method.requestSerialId (method.request.wire q) =
      some (receivedBytes events)) :
    (server.clientHandler (method.dispatcher handler other) events).sent =
      server.sent ++ method.frames (method.response.streamed (handler q)) := by
  have hidle : rpcFraming.decode server.readBuffer = .incomplete := by
    rw [hbuffer]
    rfl
  obtain ⟨-, hsent, -⟩ := Connection.clientHandler_eq (method.dispatcher handler other) server
    events hopen hsends hidle
  obtain ⟨init, last, hstream, -, -⟩ := method.response.exists_last (handler q)
  have hserve := method.serve_eq handler (hrequest.parse q) hresponse
  have hne : method.serve handler (method.request.wire q) ≠ [] := by
    rw [hserve, hstream]
    simp
  rw [hsent, hbuffer, List.nil_append,
    drain_frame (r := ⟨method.requestSerialId, method.request.wire q⟩) hreceived]
  simp only [answers, StreamMethod.dispatcher, if_true, List.append_nil,
    DispatchOutcome.responses_returned hne]
  rw [hserve]
  rfl

/-- Server streaming delivers the handler's list.  When every message fits in a
frame, the user's callback sees all of them, the last and only the last marked,
and the stub returns true; otherwise it sees those before the first that does
not fit, and the stub returns false with an error. -/
theorem server_streaming (method : StreamMethod Q M) (handler : Q → List M) (other : Dispatcher)
    (parseError : List UInt8 → Option RpcError) (token : String) (request : Q)
    (hrequest : method.request.ParseUndoes) (hresponse : method.response.ParseUndoes)
    (herror : ∀ e : RpcError, parseError e.serialize = some e)
    -- The request is sent, and the server receives it in any pieces.
    (client : RpcClient) (inp : CallInput) (arrivals : List Arrival)
    (hsend : client.sendRequest method.requestSerialId
      (method.request.wire (method.request.authorized token request)) inp = .ok arrivals)
    (server : Connection) (events : List ReadEvent)
    (hopen : server.closed = false) (hbuffer : server.readBuffer = [])
    (hsends : ∀ e ∈ server.sends, e.fatal = false)
    (hreceived : tryEncode method.requestSerialId
      (method.request.wire (method.request.authorized token request)) =
        some (receivedBytes events))
    -- What the server sends comes in, in any pieces.
    (hdelivered : (server.clientHandler (method.dispatcher handler other) events).sent =
      server.sent ++ arrived arrivals) :
    let T := method.response
    let stream := T.streamed (handler (method.request.authorized token request))
    let result := method.callStream parseError token client request (fun _ => true) inp
    (∃ init last, stream = init ++ [last] ∧
      (∀ m ∈ init, T.endOfStream m = false) ∧ T.endOfStream last = true) ∧
    ((∀ m ∈ stream, (T.wire m).length ≤ maxPayloadSize) →
      result.received = stream ∧ result.ok = true) ∧
    ((∃ m ∈ stream, maxPayloadSize < (T.wire m).length) →
      result.received = stream.takeWhile T.fits ∧ result.ok = false ∧ result.error ≠ "") := by
  intro T stream result
  have harr : arrived arrivals = method.frames stream := by
    have hsent := method.sent_eq handler other server events hrequest hresponse hopen hbuffer
      hsends hreceived
    exact List.append_cancel_left (hdelivered.symm.trans hsent)
  have hloop : client.callStream method.requestSerialId
      (method.request.wire (method.request.authorized token request))
      (some (method.callback parseError fun _ => true)) {} inp =
        streamLoop (some (method.listening parseError)) {} arrivals := by
    rw [RpcClient.callStream, hsend]
    rfl
  refine ⟨T.exists_last _, ?_, ?_⟩
  · intro hfit
    have hwhole := StreamMethod.streamLoop_of_fits parseError hresponse _ arrivals harr
      (fun m hm => decide_eq_true (hfit m hm))
    simp only [result, StreamMethod.callStream, hrequest.serialize, hloop, hwhole]
    exact ⟨rfl, rfl⟩
  · rintro ⟨m, hm, hlong⟩
    have hnot : ¬ ∀ m ∈ stream, T.fits m = true := fun hall =>
      Nat.not_lt.mpr (of_decide_eq_true (hall m hm)) hlong
    have hcut := StreamMethod.streamLoop_of_oversized parseError hresponse herror _ arrivals
      harr hnot
    simp only [result, StreamMethod.callStream, hrequest.serialize, hloop, hcut]
    exact ⟨rfl, rfl, by decide⟩

/-- A small streaming method: a message is a byte and its end marker. -/
def sampleStream : StreamMethod Unit (UInt8 × Bool) where
  request :=
    { serialize := fun _ => some []
      parse := fun _ => some ()
      authToken := fun _ => ""
      setAuthToken := fun _ q => q }
  response :=
    { serialize := fun m => some [m.1, if m.2 then 1 else 0]
      parse := fun data =>
        match data with
        | [value, marker] => some (value, marker = 1)
        | _ => none
      blank := (0, false)
      setSuccess := fun _ m => m
      endOfStream := fun m => m.2
      setEndOfStream := fun b m => (m.1, b)
      endOfStream_set := fun _ _ => rfl
      set_set := fun _ _ _ => rfl }
  requestSerialId := 27
  responseSerialId := 28
  notError := by decide

theorem sampleStream_parseUndoes : sampleStream.response.ParseUndoes := by
  rintro ⟨value, marker⟩
  cases marker <;> rfl

/-- The two frames of a stream as they come in, in four pieces. -/
def sampleArrivals : List Arrival :=
  [.piece 0 [0, 0, 6, 0, 0], .retry, .piece 0 [28, 7, 0, 0], .piece 0 [0, 6, 0, 0, 0, 28, 8, 1]]

/-- Two messages, both marked by the handler, on their way to the callback. -/
theorem server_streaming_two :
    let result := sampleStream.callStream RpcError.parse "" {} () (fun _ => true)
      { answer := sampleArrivals }
    result.received = [(7, false), (8, true)] ∧ result.ok = true := by
  have hsent := sampleStream.sent_eq (fun _ => [(7, true), (8, true)]) (fun _ _ => .rejected)
    (q := ()) {} [.chunk ⟨[0, 0, 0, 4, 0, 0, 0, 27], by decide⟩] (fun _ => rfl)
    sampleStream_parseUndoes rfl rfl (by simp) rfl
  have hframes : sampleStream.frames (sampleStream.response.streamed [(7, true), (8, true)]) =
      arrived sampleArrivals := by decide
  rw [hframes] at hsent
  obtain ⟨-, hfits, -⟩ := server_streaming sampleStream (fun _ => [(7, true), (8, true)])
    (fun _ _ => .rejected) RpcError.parse "" () (fun _ => rfl) sampleStream_parseUndoes
    RpcError.parse_serialize {} { answer := sampleArrivals } sampleArrivals rfl {} _ rfl rfl
    (by simp) rfl hsent
  -- Every message of the sample is two bytes long.
  exact hfits fun _ _ => show 2 ≤ maxPayloadSize by decide

end Corpcron
