import Corpcron.Rpc.ConnectionReuse

/-!
# Calls against the clock

`RpcClient` takes what a call meets from lists in which a failure is an entry.
Here the call waits as the code does: every turn of `waitForEvent` asks for the
cancellation, then for the time that is left, and polls for at most a slice.  One
deadline serves the connection, the request and the response.

`call_in_time` says that a call comes to its end, when, for which reason, and
that its result is one of `RpcClient.call`.
-/

namespace Corpcron
namespace CallTiming

/-! ## The loops -/

inductive PollResult where
  | ready
  /-- Only events that were not asked for. -/
  | other
  | timedOut
  | interrupted
  | failed

/-- The result of `send`. -/
inductive SendIo where
  /-- One byte and up to `more` others. -/
  | accepted (more : Nat)
  | retry
  | failed

/-- The result of `recv` for at most `size + 1` bytes. -/
inductive RecvIo (size : Nat) where
  | received (first : UInt8) (more : List UInt8) (fits : more.length ≤ size)
  | retry
  | failed

/-- A turn of `waitForEvent`, with the `send` or `recv` that follows if the
socket is ready.  Times are nanoseconds of the steady clock. -/
structure Turn where
  canceled : Bool := false
  now : Nat
  poll : PollResult := .ready
  send : SendIo := .retry
  recv : (size : Nat) → RecvIo size := fun _ => .retry
  /-- What `terminalStatus` finds. -/
  canceledAfter : Bool := false
  nowAfter : Nat := now

/-- `kPollSliceMs`. -/
def pollSliceMs : Nat := 100

/-- `remainingMs`. -/
def remainingMs (deadline now : Nat) : Nat := min ((deadline - now) / 1000000) 2147483647

namespace Turn

/-- The turn up to the end of `poll`; `false` if the loop goes round again. -/
def wait (deadline : Nat) (t : Turn) : Except IoFailure Bool :=
  if t.canceled then .error .canceled
  else if remainingMs deadline t.now = 0 then .error .deadlineExceeded
  else
    match t.poll with
    | .ready => .ok true
    | .timedOut | .interrupted => .ok false
    | .other | .failed => .error .transportError

/-- The latest end of `poll`. -/
def pollEnds (deadline : Nat) (t : Turn) : Nat :=
  t.now + 1000000 * min (remainingMs deadline t.now) pollSliceMs

def terminalStatus (deadline : Nat) (t : Turn) : IoFailure :=
  if t.canceledAfter then .canceled
  else if deadline ≤ t.nowAfter then .deadlineExceeded
  else .transportError

end Turn

/-- A result and the turns after it; `none` if the turns do not suffice. -/
abbrev Waiting (α : Type) := Option (α × List Turn)

/-- `waitForEvent`. -/
def waitForEvent (deadline : Nat) : List Turn → Waiting (Except IoFailure Unit)
  | [] => none
  | t :: turns =>
      match t.wait deadline with
      | .error why => some (.error why, turns)
      | .ok true => some (.ok (), turns)
      | .ok false => waitForEvent deadline turns

/-- `sendAll`; a turn that goes round again stays in `waitForEvent`. -/
def sendAll (deadline : Nat) : List Turn → List UInt8 → Waiting (Except IoFailure Unit)
  | turns, [] => some (.ok (), turns)
  | [], _ :: _ => none
  | t :: turns, byte :: data =>
      match t.wait deadline with
      | .error why => some (.error why, turns)
      | .ok false => sendAll deadline turns (byte :: data)
      | .ok true =>
          match t.send with
          | .accepted more => sendAll deadline turns (data.drop more)
          | .retry => sendAll deadline turns (byte :: data)
          | .failed => some (.error (t.terminalStatus deadline), turns)

/-- `recvExact` for the bytes still missing. -/
def recvExact (deadline : Nat) : List Turn → Nat → Waiting (Except IoFailure (List UInt8))
  | turns, 0 => some (.ok [], turns)
  | [], _ + 1 => none
  | t :: turns, size + 1 =>
      match t.wait deadline with
      | .error why => some (.error why, turns)
      | .ok false => recvExact deadline turns (size + 1)
      | .ok true =>
          match t.recv size with
          | .received first more _ =>
              (recvExact deadline turns (size - more.length)).map
                (Prod.map (Except.map (first :: more ++ ·)) id)
          | .retry => recvExact deadline turns (size + 1)
          | .failed => some (.error (t.terminalStatus deadline), turns)

/-! ## The call -/

/-- What a call does next, unless it has failed. -/
def andThen {ε α β : Type} (r : Waiting (Except ε α)) (fail : ε → β)
    (next : α → List Turn → Waiting β) : Waiting β :=
  match r with
  | none => none
  | some (.error e, turns) => some (fail e, turns)
  | some (.ok a, turns) => next a turns

/-- How `::connect` or what comes before it ends. -/
inductive ConnectStart where
  | refused (error : String)
  | connected
  | inProgress

structure Net where
  connect : ConnectStart := .connected
  /-- `SO_ERROR`, or the error of `getsockopt`. -/
  socketError : Option String := none
  turns : List Turn

/-- `connect` without a socket. -/
def connect (deadline : Nat) (net : Net) : Waiting (Except (RpcCallStatus × String) Unit) :=
  match net.connect with
  | .refused error => some (.error (.connectFailed, error), net.turns)
  | .connected => some (.ok (), net.turns)
  | .inProgress =>
      andThen (waitForEvent deadline net.turns) (fun why => .error (why.status, why.status.name))
        fun _ turns =>
          match net.socketError with
          | none => some (.ok (), turns)
          | some error => some (.error (.connectFailed, error), turns)

/-- The part of `call` that reads the response. -/
def readResponse (deadline : Nat) (turns : List Turn) : Waiting (Except ReadError RpcResponse) :=
  andThen (recvExact deadline turns headerSize.toNat) (fun why => .error (.io why))
    fun header turns =>
      let totalLen := headerWord header
      if totalLen < serialIdSize ∨ totalLen > maxFrameSize then some (.error .badLength, turns)
      else
        andThen (recvExact deadline turns (payloadSizeOf totalLen).toNat)
          (fun why => .error (.io why)) fun body turns =>
            match tryDecodeFrame (frameBuffer (frameBufferSize totalLen).toNat header body) with
            | .complete serialId payload _ => some (.ok ⟨serialId, payload⟩, turns)
            | _ => some (.error .undecodable, turns)

/-- The timeout and the deadline of `RpcCallOptions`; 0 stands for no deadline. -/
structure CallOptions where
  timeoutMs : Int := 3000
  deadline : Nat := 0

/-- `ensureDeadline`. -/
def CallOptions.ensureDeadline (options : CallOptions) (now : Nat) : Nat :=
  if options.deadline = 0 then
    now + 1000000 * if options.timeoutMs > 0 then options.timeoutMs.toNat else 3000
  else options.deadline

def failedCall (report : RpcCallStatus × String) : CallResult := ⟨.failed report, false, 0, []⟩

/-- `call` once it is connected. -/
def exchange (deadline : Nat) (serialId : UInt32) (requestData : List UInt8) (turns : List Turn) :
    Waiting CallResult :=
  match tryEncode serialId requestData with
  | none => some (failedCall (.payloadTooLarge, "request payload too large"), turns)
  | some data =>
      andThen (sendAll deadline turns data) (fun why => failedCall (why.status, why.status.name))
        fun _ turns =>
          andThen (readResponse deadline turns) (fun e => failedCall e.ofCall)
            fun response turns =>
              some (⟨{ socket := some [] }, true, response.serialId, response.payload⟩, turns)

/-- `call` of a client that is connected or not, from `start` on. -/
def call (options : CallOptions) (start : Nat) (connected : Bool) (serialId : UInt32)
    (requestData : List UInt8) (net : Net) : Waiting CallResult :=
  let deadline := options.ensureDeadline start
  if connected then exchange deadline serialId requestData net.turns
  else
    andThen (connect deadline net) failedCall fun _ turns =>
      exchange deadline serialId requestData turns

/-! ## The turns of a call -/

/-- The status in the result of a part of a call. -/
def statusOf {ε α : Type} (report : ε → RpcCallStatus) : Except ε α → RpcCallStatus
  | .ok _ => .ok
  | .error e => report e

/-- The call is not canceled and has a millisecond left. -/
def Turn.GoesOn (deadline : Nat) (t : Turn) : Prop :=
  t.canceled = false ∧ t.now + 1000000 ≤ deadline

/-- The turn has met what the status says. -/
def Turn.Meets (deadline : Nat) (t : Turn) : RpcCallStatus → Prop
  | .canceled => t.canceled = true ∨ t.canceledAfter = true
  | .deadlineExceeded => deadline < t.now + 1000000 ∨ deadline ≤ t.nowAfter
  | _ => t.GoesOn deadline

/-- The turns that a part of a call uses up: all of them go on, but for the last
one if the status says that the call was canceled or came too late. -/
inductive Spends (deadline : Nat) (status : RpcCallStatus) : List Turn → Prop where
  | nothing (h : status ≠ .canceled ∧ status ≠ .deadlineExceeded) : Spends deadline status []
  | on {t : Turn} {used : List Turn} (h : t.GoesOn deadline)
      (hlater : Spends deadline status used) : Spends deadline status (t :: used)
  | last {t : Turn} (h : t.Meets deadline status) : Spends deadline status [t]

/-- No turn begins later than `latest`, and none later than `delay` after the
poll before it. -/
def Timely (deadline delay : Nat) : Nat → List Turn → Prop
  | _, [] => True
  | latest, t :: turns =>
      t.now ≤ latest ∧ Timely deadline delay (t.pollEnds deadline + delay) turns

section Turns

variable {deadline : Nat} {t : Turn} {used later : List Turn} {status : RpcCallStatus}

theorem remainingMs_eq_zero {now : Nat} :
    remainingMs deadline now = 0 ↔ deadline < now + 1000000 := by
  unfold remainingMs
  omega

theorem Turn.meets_of_wait {r : Except IoFailure Bool} (h : t.wait deadline = r) :
    t.Meets deadline (statusOf IoFailure.status r) := by
  subst h
  unfold Turn.wait
  split
  · exact .inl ‹_›
  · split
    · exact .inl (remainingMs_eq_zero.mp ‹_›)
    · rename_i hcanceled hleft
      rw [remainingMs_eq_zero] at hleft
      have hgoes : t.GoesOn deadline := ⟨by simpa using hcanceled, by omega⟩
      cases t.poll <;> exact hgoes

theorem Turn.meets_terminalStatus (h : t.GoesOn deadline) :
    t.Meets deadline (t.terminalStatus deadline).status := by
  unfold Turn.terminalStatus
  split
  · exact .inr ‹_›
  · split
    · exact .inr ‹_›
    · exact h

theorem Spends.append (h : Spends deadline .ok used) (hlater : Spends deadline status later) :
    Spends deadline status (used ++ later) := by
  induction h with
  | nothing _ => exact hlater
  | on hturn _ ih => exact .on hturn ih
  | last hturn => exact .on hturn hlater

theorem Spends.goesOn (h : Spends deadline .ok used) : ∀ t ∈ used, t.GoesOn deadline := by
  induction h with
  | nothing _ => exact List.forall_mem_nil _
  | on hturn _ ih => exact List.forall_mem_cons.mpr ⟨hturn, ih⟩
  | last hturn => exact List.forall_mem_singleton.mpr hturn

theorem pollEnds_le (deadline : Nat) (t : Turn) : t.pollEnds deadline ≤ max t.now deadline := by
  unfold Turn.pollEnds remainingMs
  omega

/-- No poll that is used lasts longer than the deadline and the delay allow. -/
theorem Spends.timely {delay latest : Nat} (h : Spends deadline status used)
    (htimely : Timely deadline delay latest (used ++ later)) :
    ∀ t ∈ used, t.pollEnds deadline ≤ max latest (deadline + delay) := by
  induction h generalizing latest with
  | nothing _ => exact List.forall_mem_nil _
  | @on t used hturn _ ih =>
      obtain ⟨hnow, hnext⟩ := htimely
      have hends : t.pollEnds deadline ≤ deadline := by
        have := pollEnds_le deadline t
        have := hturn.2
        omega
      refine List.forall_mem_cons.mpr ⟨by omega, fun t' ht' => ?_⟩
      have := ih hnext t' ht'
      omega
  | @last t _ =>
      have := htimely.1
      have := pollEnds_le deadline t
      exact List.forall_mem_singleton.mpr (by omega)

end Turns

/-! ## Every part of a call accounts for its turns -/

/-- What a part of a call does with the turns.  `status` is the status in its
result, and `P` what is known of the result.  Without a result all turns are used
and the call is not over. -/
def Accounts {α : Type} (deadline : Nat) (status : α → RpcCallStatus) (P : α → Prop)
    (turns : List Turn) : Waiting α → Prop
  | none => ∀ t ∈ turns, t.GoesOn deadline
  | some (result, rest) =>
      P result ∧ ∃ used, turns = used ++ rest ∧ Spends deadline (status result) used

/-- The turns that a part of a call has used up. -/
def spentTurns {α : Type} (turns : List Turn) : Waiting α → List Turn
  | none => turns
  | some (_, rest) => turns.take (turns.length - rest.length)

namespace Accounts

variable {α β : Type} {deadline : Nat} {f : α → RpcCallStatus} {g : β → RpcCallStatus}
  {P Q : α → Prop} {R : β → Prop} {t : Turn} {turns : List Turn} {result : α} {r : Waiting α}

theorem ends (hP : P result) (h : f result ≠ .canceled ∧ f result ≠ .deadlineExceeded) :
    Accounts deadline f P turns (some (result, turns)) :=
  ⟨hP, [], rfl, .nothing h⟩

theorem last (hP : P result) (h : t.Meets deadline (f result)) :
    Accounts deadline f P (t :: turns) (some (result, turns)) :=
  ⟨hP, [t], rfl, .last h⟩

/-- A turn that goes on, before the rest of a loop. -/
theorem on (h : t.GoesOn deadline) (hlater : Accounts deadline f P turns r) :
    Accounts deadline f P (t :: turns) r := by
  cases r with
  | none => exact List.forall_mem_cons.mpr ⟨h, hlater⟩
  | some r =>
      obtain ⟨hP, used, heq, hspends⟩ := hlater
      exact ⟨hP, t :: used, congrArg (t :: ·) heq, .on h hspends⟩

theorem imp (h : Accounts deadline f P turns r)
    (hQ : ∀ result, P result → Q result) : Accounts deadline f Q turns r := by
  cases r with
  | none => exact h
  | some r => exact ⟨hQ _ h.1, h.2⟩

theorem map (h : Accounts deadline f P turns r) {φ : α → β}
    (hφ : ∀ result, P result → R (φ result)) (hsame : ∀ result, g (φ result) = f result) :
    Accounts deadline g R turns (r.map (Prod.map φ id)) := by
  cases r with
  | none => exact h
  | some r =>
      obtain ⟨hP, used, heq, hspends⟩ := h
      exact ⟨hφ _ hP, used, heq, (hsame r.1).symm ▸ hspends⟩

/-- No turn that is used comes later than the deadline and the delays allow. -/
theorem spent_le {delay : Nat} (h : Accounts deadline f P turns r)
    (htimely : Timely deadline delay (deadline + delay) turns) :
    ∀ t ∈ spentTurns turns r, t.now ≤ deadline + delay := by
  cases r with
  | none => exact fun t ht => Nat.le_add_right_of_le (Nat.le_of_add_right_le (h t ht).2)
  | some r =>
      obtain ⟨-, used, rfl, hspends⟩ := h
      intro t ht
      rw [spentTurns, List.length_append, Nat.add_sub_cancel, List.take_left] at ht
      have hends := hspends.timely htimely t ht
      have hnow : t.now ≤ t.pollEnds deadline := Nat.le_add_right _ _
      omega

/-- A part of a call, and what comes next unless it has failed. -/
theorem andThen {ε : Type} {report : ε → RpcCallStatus} {P : Except ε α → Prop}
    {r : Waiting (Except ε α)} {fail : ε → β} {next : α → List Turn → Waiting β}
    (h : Accounts deadline (statusOf report) P turns r)
    (hfail : ∀ e, P (.error e) → R (fail e) ∧ g (fail e) = report e)
    (hnext : ∀ a rest, P (.ok a) → Accounts deadline g R rest (next a rest)) :
    Accounts deadline g R turns (CallTiming.andThen r fail next) := by
  match r, h with
  | none, h => exact h
  | some (.error e, rest), ⟨hP, used, heq, hspends⟩ =>
      obtain ⟨hR, hsame⟩ := hfail e hP
      exact ⟨hR, used, heq, hsame.symm ▸ hspends⟩
  | some (.ok a, rest), ⟨hP, used, heq, hspends⟩ =>
      have hlater := hnext a rest hP
      change Accounts deadline g R turns (next a rest)
      rw [heq]
      generalize next a rest = r at hlater
      cases r with
      | none => exact List.forall_mem_append.mpr ⟨hspends.goesOn, hlater⟩
      | some r =>
          obtain ⟨hR, used', heq', hspends'⟩ := hlater
          exact ⟨hR, used ++ used', by rw [heq', List.append_assoc], hspends.append hspends'⟩

end Accounts

section Loops

variable (deadline : Nat)

theorem waitForEvent_accounts (turns : List Turn) :
    Accounts deadline (statusOf IoFailure.status) (fun _ => True) turns
      (waitForEvent deadline turns) := by
  fun_induction waitForEvent deadline turns with
  | case1 => exact List.forall_mem_nil _
  | case2 t turns why hwait => exact .last trivial (Turn.meets_of_wait hwait)
  | case3 t turns hwait => exact .last trivial (Turn.meets_of_wait hwait)
  | case4 t turns hwait ih => exact .on (Turn.meets_of_wait hwait) ih

def sendResult : Except IoFailure Unit → Option IoFailure
  | .ok _ => none
  | .error why => some why

/-- The result is one of `sendAll` without a clock. -/
def Sends (data : List UInt8) (result : Except IoFailure Unit) : Prop :=
  ∃ steps, Corpcron.sendAll data steps = sendResult result

theorem sendAll_accounts (turns : List Turn) (data : List UInt8) :
    Accounts deadline (statusOf IoFailure.status) (Sends data) turns
      (sendAll deadline turns data) := by
  fun_induction sendAll deadline turns data with
  | case1 turns => exact .ends ⟨[], rfl⟩ (by simp [statusOf])
  | case2 => exact List.forall_mem_nil _
  | case3 t turns byte data why hwait =>
      exact .last ⟨[.failed why], rfl⟩ (Turn.meets_of_wait hwait)
  | case4 t turns byte data hwait ih => exact .on (Turn.meets_of_wait hwait) ih
  | case5 t turns byte data hwait more hsend ih =>
      refine .on (Turn.meets_of_wait hwait) (ih.imp fun result hresult => ?_)
      obtain ⟨steps, hsteps⟩ := hresult
      exact ⟨.accepted more :: steps, hsteps⟩
  | case6 t turns byte data hwait hsend ih =>
      exact .on (Turn.meets_of_wait hwait) ih
  | case7 t turns byte data hwait hsend =>
      exact .last ⟨[.failed _], rfl⟩ (Turn.meets_terminalStatus (Turn.meets_of_wait hwait))

def recvResult (more : List Arrival) : Except IoFailure (List UInt8) → RecvResult
  | .ok data => .received data more
  | .error why => .failed why more

/-- The result is one of `recvExact` without a clock, whatever comes in later. -/
def Receives (size : Nat) (result : Except IoFailure (List UInt8)) : Prop :=
  ∃ arrivals, ∀ more, Corpcron.recvExact size (arrivals ++ more) = recvResult more result

theorem Receives.piece {size : Nat} {result : Except IoFailure (List UInt8)} {first : UInt8}
    {front : List UInt8} (hfits : front.length ≤ size)
    (h : Receives (size - front.length) result) :
    Receives (size + 1) (result.map (first :: front ++ ·)) := by
  obtain ⟨arrivals, harrivals⟩ := h
  refine ⟨.piece first front :: arrivals, fun more => ?_⟩
  rw [List.cons_append, Corpcron.recvExact, if_pos hfits, harrivals]
  cases result <;> rfl

theorem recvExact_accounts (turns : List Turn) (size : Nat) :
    Accounts deadline (statusOf IoFailure.status) (Receives size) turns
      (recvExact deadline turns size) := by
  fun_induction recvExact deadline turns size with
  | case1 turns => exact .ends ⟨[], by simp [Corpcron.recvExact, recvResult]⟩ (by simp [statusOf])
  | case2 => exact List.forall_mem_nil _
  | case3 t turns size why hwait =>
      exact .last ⟨[.failed why], fun _ => rfl⟩ (Turn.meets_of_wait hwait)
  | case4 t turns size hwait ih => exact .on (Turn.meets_of_wait hwait) ih
  | case5 t turns size hwait first more hfits hrecv ih =>
      refine .on (Turn.meets_of_wait hwait)
        (ih.map (fun _ h => h.piece hfits) fun result => ?_)
      cases result <;> rfl
  | case6 t turns size hwait hrecv ih => exact .on (Turn.meets_of_wait hwait) ih
  | case7 t turns size hwait hrecv =>
      exact .last ⟨[.failed _], fun _ => rfl⟩
        (Turn.meets_terminalStatus (Turn.meets_of_wait hwait))

end Loops

/-! ## The parts of a call -/

section Parts

variable (deadline : Nat)

theorem connect_accounts (net : Net) :
    Accounts deadline (statusOf Prod.fst) (fun _ => True) net.turns (connect deadline net) := by
  unfold connect
  cases net.connect with
  | refused error => exact .ends trivial (by simp [statusOf])
  | connected => exact .ends trivial (by simp [statusOf])
  | inProgress =>
      refine (waitForEvent_accounts deadline net.turns).andThen (fun _ _ => ⟨trivial, rfl⟩) ?_
      intro _ rest _
      cases net.socketError <;> exact .ends trivial (by simp [statusOf])

/-- The result is one of `readResponse` without a clock. -/
def Reads (result : Except ReadError RpcResponse) : Prop :=
  ∃ arrivals, Corpcron.readResponse arrivals = (result, [])

theorem readResponse_accounts (turns : List Turn) :
    Accounts deadline (statusOf fun e => e.ofCall.1) Reads turns (readResponse deadline turns) := by
  refine (recvExact_accounts deadline turns _).andThen ?_ ?_
  · rintro why ⟨arrivals, harrivals⟩
    exact ⟨⟨arrivals ++ [], by rw [Corpcron.readResponse, harrivals]; rfl⟩, rfl⟩
  · rintro header rest ⟨arrivals, harrivals⟩
    dsimp only
    split
    · rename_i hlength
      refine .ends ⟨arrivals ++ [], ?_⟩ (by simp [statusOf, ReadError.ofCall])
      rw [Corpcron.readResponse, harrivals]
      simp only [recvResult, if_pos hlength]
    · rename_i hlength
      -- The arrivals of the header, then those of the body.
      refine (recvExact_accounts deadline rest _).andThen ?_ ?_
      · rintro why ⟨more, hmore⟩
        refine ⟨⟨arrivals ++ (more ++ []), ?_⟩, rfl⟩
        rw [Corpcron.readResponse, harrivals]
        simp only [recvResult, if_neg hlength, hmore]
      · rintro body rest' ⟨more, hmore⟩
        cases hdecode : tryDecodeFrame
          (frameBuffer (frameBufferSize (headerWord header)).toNat header body) with
        | complete serialId payload n =>
            refine .ends ⟨arrivals ++ (more ++ []), ?_⟩ (by simp [statusOf])
            rw [Corpcron.readResponse, harrivals]
            simp only [recvResult, if_neg hlength, hmore, hdecode]
        | _ =>
            refine .ends ⟨arrivals ++ (more ++ []), ?_⟩ (by simp [statusOf, ReadError.ofCall])
            rw [Corpcron.readResponse, harrivals]
            simp only [recvResult, if_neg hlength, hmore, hdecode]

/-- The result is one of `RpcClient.call` on a connection on which nothing is
still to come in. -/
def Exchanges (serialId : UInt32) (requestData : List UInt8) (result : CallResult) : Prop :=
  ∃ inp : CallInput, inp.connect = .connected ∧
    ∀ client : RpcClient, client.ensureConnected inp = .ok [] →
      result = client.call serialId requestData inp

def callStatus (result : CallResult) : RpcCallStatus := result.client.lastStatus

theorem exchange_accounts (serialId : UInt32) (requestData : List UInt8) (turns : List Turn) :
    Accounts deadline callStatus (Exchanges serialId requestData) turns
      (exchange deadline serialId requestData turns) := by
  unfold exchange
  cases hencode : tryEncode serialId requestData with
  | none =>
      refine .ends ⟨{}, rfl, fun client hclient => ?_⟩
        (by simp [callStatus, failedCall, RpcClient.failed])
      simp only [RpcClient.call, RpcClient.sendRequest, hclient, hencode]
      rfl
  | some data =>
      refine (sendAll_accounts deadline turns data).andThen ?_ ?_
      · rintro why ⟨steps, hsteps⟩
        refine ⟨⟨{ sends := steps }, rfl, fun client hclient => ?_⟩, rfl⟩
        simp only [RpcClient.call, RpcClient.sendRequest, hclient, hencode, hsteps, sendResult]
        rfl
      · rintro _ rest ⟨steps, hsteps⟩
        have hexchanges : ∀ {answer result}, Corpcron.readResponse answer = (result, []) →
            Exchanges serialId requestData (match result with
              | .error e => failedCall e.ofCall
              | .ok response =>
                  ⟨{ socket := some [] }, true, response.serialId, response.payload⟩) := by
          intro answer result hanswer
          refine ⟨{ sends := steps, answer }, rfl, fun client hclient => ?_⟩
          simp only [RpcClient.call, RpcClient.sendRequest, hclient, hencode, hsteps, sendResult,
            List.nil_append, hanswer]
          cases result <;> rfl
        refine (readResponse_accounts deadline rest).andThen ?_ ?_
        · rintro e ⟨answer, hanswer⟩
          exact ⟨hexchanges hanswer, rfl⟩
        · rintro response rest' ⟨answer, hanswer⟩
          exact .ends (hexchanges hanswer) (by simp [callStatus])

/-- The client before a call: between two calls nothing is still to come in. -/
def clientOf (connected : Bool) : RpcClient := { socket := if connected then some [] else none }

theorem call_accounts (options : CallOptions) (start : Nat) (connected : Bool) (serialId : UInt32)
    (requestData : List UInt8) (net : Net) :
    Accounts (options.ensureDeadline start) callStatus
      (fun result => ∃ inp, result = (clientOf connected).call serialId requestData inp)
      net.turns (call options start connected serialId requestData net) := by
  have hexchange := exchange_accounts (options.ensureDeadline start) serialId requestData
  unfold call
  cases connected with
  | true => exact (hexchange net.turns).imp fun _ ⟨inp, _, h⟩ => ⟨inp, h _ rfl⟩
  | false =>
      refine (connect_accounts (options.ensureDeadline start) net).andThen ?_ ?_
      · rintro ⟨status, error⟩ _
        exact ⟨⟨{ connect := .failed status error }, rfl⟩, rfl⟩
      · intro _ rest _
        refine (hexchange rest).imp ?_
        rintro _ ⟨inp, hinp, h⟩
        refine ⟨inp, h _ ?_⟩
        simp only [RpcClient.ensureConnected, clientOf, hinp, if_neg Bool.false_ne_true]

end Parts

/-- A call of a client on which nothing is still to come in, whatever the network,
the clock and the canceling thread do.

It returns as soon as a turn of its loops finds the call canceled or less than a
millisecond left.  What it returns is what `RpcClient.call` returns for some
input.  Of the turns it has used, all went on; only if the status is `Canceled` or
`DeadlineExceeded`, the last one has found this to be so.  No poll has lasted
longer than the deadline and the delays between the turns allow. -/
theorem call_in_time (options : CallOptions) (start : Nat) (connected : Bool) (serialId : UInt32)
    (requestData : List UInt8) (net : Net) :
    ((∃ t ∈ net.turns, ¬ t.GoesOn (options.ensureDeadline start)) →
      (call options start connected serialId requestData net).isSome = true) ∧
    ∀ result rest, call options start connected serialId requestData net = some (result, rest) →
      (∃ inp, result = (clientOf connected).call serialId requestData inp) ∧
      ∃ used, net.turns = used ++ rest ∧
        Spends (options.ensureDeadline start) result.client.lastStatus used ∧
        ∀ delay latest, Timely (options.ensureDeadline start) delay latest net.turns →
          ∀ t ∈ used, t.pollEnds (options.ensureDeadline start) ≤
            max latest (options.ensureDeadline start + delay) := by
  have haccounts := call_accounts options start connected serialId requestData net
  refine ⟨fun hend => ?_, fun result rest hcall => ?_⟩
  · cases hcall : call options start connected serialId requestData net with
    | none =>
        rw [hcall] at haccounts
        obtain ⟨t, ht, hnot⟩ := hend
        exact absurd (haccounts t ht) hnot
    | some _ => rfl
  · rw [hcall] at haccounts
    obtain ⟨hinp, used, hused, hspends⟩ := haccounts
    refine ⟨hinp, used, hused, hspends, fun delay latest htimely => ?_⟩
    rw [hused] at htimely
    exact hspends.timely htimely

/-- The call waits for the connection, sends its request and is canceled. -/
def canceledNet : Net where
  connect := .inProgress
  turns := [{ now := 0, poll := .timedOut }, { now := 100000000 },
    { now := 100000001, send := .accepted 7 }, { now := 100000002, canceled := true }]

theorem call_in_time_canceled :
    ∃ result, call {} 0 false 1 [] canceledNet = some (result, []) ∧
      result.client.lastError = "canceled" ∧ ∃ inp, result = (clientOf false).call 1 [] inp :=
  ⟨_, rfl, rfl, ((call_in_time {} 0 false 1 [] canceledNet).2 _ [] rfl).1⟩

end CallTiming
end Corpcron
