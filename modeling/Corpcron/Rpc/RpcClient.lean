import Corpcron.Rpc.RpcError

/-!
# The RPC client

`RpcClient` owns one socket and uses it for one request at a time.  What the
peer and the clock do is given by lists: `SendStep` for the calls of `send`, and
`Arrival` for what comes in on a socket.  The pieces of an `Arrival` list are
those in which `recv` returns the bytes; a failure between them is the moment at
which the deadline passes, the call is canceled or the connection breaks, and
bytes behind it are bytes that come too late.

`call` and `callStream` read a response in the same way and differ only in the
texts of two errors, so `readResponse` is the reader of both.
`response_reader_agrees` compares it with `tryDecodeFrame`.
-/

namespace Corpcron

open Lib

/-- `RpcCallStatus`. -/
inductive RpcCallStatus where
  | ok
  | connectFailed
  | payloadTooLarge
  | deadlineExceeded
  | canceled
  | transportError
  | protocolError
deriving DecidableEq

/-- `statusName`. -/
def RpcCallStatus.name : RpcCallStatus → String
  | .ok => "ok"
  | .connectFailed => "connect failed"
  | .payloadTooLarge => "payload too large"
  | .deadlineExceeded => "deadline exceeded"
  | .canceled => "canceled"
  | .transportError => "transport error"
  | .protocolError => "protocol error"

/-- How waiting for a socket, sending or receiving fails. -/
inductive IoFailure where
  | canceled
  | deadlineExceeded
  | transportError
deriving DecidableEq

/-- The status a failure leaves behind. -/
def IoFailure.status : IoFailure → RpcCallStatus
  | .canceled => .canceled
  | .deadlineExceeded => .deadlineExceeded
  | .transportError => .transportError

/-! ## Sending -/

/-- What one turn of `sendAll` meets. -/
inductive SendStep where
  /-- `send` takes one byte and up to `more` others. -/
  | accepted (more : Nat)
  /-- `EINTR` or `EAGAIN`. -/
  | retry
  | failed (why : IoFailure)

/-- `sendAll` on what is left to send: `none` when all of it is sent.  When the
list is exhausted, the socket takes everything. -/
def sendAll : List UInt8 → List SendStep → Option IoFailure
  | [], _ => none
  | _ :: _, [] => none
  | data, .accepted more :: steps => sendAll (data.drop (more + 1)) steps
  | data, .retry :: steps => sendAll data steps
  | _, .failed why :: _ => some why

/-! ## Receiving -/

/-- What one turn of `recvExact` meets. -/
inductive Arrival where
  /-- A piece of the peer's stream, never empty. -/
  | piece (first : UInt8) (more : List UInt8)
  /-- `EINTR` or `EAGAIN`. -/
  | retry
  | failed (why : IoFailure)

/-- The bytes that come in before the first failure. -/
def arrived : List Arrival → List UInt8
  | [] => []
  | .piece first more :: arrivals => first :: (more ++ arrived arrivals)
  | .retry :: arrivals => arrived arrivals
  | .failed _ :: _ => []

/-- All bytes, those that come too late included. -/
def allBytes : List Arrival → List UInt8
  | [] => []
  | .piece first more :: arrivals => first :: (more ++ allBytes arrivals)
  | .retry :: arrivals => allBytes arrivals
  | .failed _ :: arrivals => allBytes arrivals

/-- Put bytes that were not taken back in front. -/
def putBack : List UInt8 → List Arrival → List Arrival
  | [], arrivals => arrivals
  | first :: more, arrivals => .piece first more :: arrivals

@[simp] theorem arrived_putBack (data : List UInt8) (arrivals : List Arrival) :
    arrived (putBack data arrivals) = data ++ arrived arrivals := by
  cases data <;> rfl

@[simp] theorem allBytes_putBack (data : List UInt8) (arrivals : List Arrival) :
    allBytes (putBack data arrivals) = data ++ allBytes arrivals := by
  cases data <;> rfl

/-- The buffer of `recvExact`, or why it was not filled, with what is still to
come. -/
inductive RecvResult where
  | received (data : List UInt8) (rest : List Arrival)
  | failed (why : IoFailure) (rest : List Arrival)

/-- More bytes in front of the buffer. -/
def RecvResult.prepend (front : List UInt8) : RecvResult → RecvResult
  | .received data rest => .received (front ++ data) rest
  | .failed why rest => .failed why rest

/-- `recvExact` for the bytes still missing.  When nothing more comes in, the
deadline passes. -/
def recvExact : Nat → List Arrival → RecvResult
  | 0, arrivals => .received [] arrivals
  | _ + 1, [] => .failed .deadlineExceeded []
  | size + 1, .piece first more :: arrivals =>
      -- `recv` returns at most as many bytes as are asked for.
      if more.length ≤ size then
        (recvExact (size - more.length) arrivals).prepend (first :: more)
      else .received (first :: more.take size) (putBack (more.drop size) arrivals)
  | size + 1, .retry :: arrivals => recvExact (size + 1) arrivals
  | _ + 1, .failed why :: arrivals => .failed why arrivals

/-- Enough bytes come in: the buffer is filled with the first of them. -/
theorem recvExact_of_le (size : Nat) (arrivals : List Arrival)
    (h : size ≤ (arrived arrivals).length) :
    ∃ rest, recvExact size arrivals = .received ((arrived arrivals).take size) rest ∧
      arrived rest = (arrived arrivals).drop size ∧
      allBytes arrivals = (arrived arrivals).take size ++ allBytes rest := by
  induction arrivals generalizing size with
  | nil =>
      obtain rfl : size = 0 := Nat.le_zero.mp h
      exact ⟨[], rfl, rfl, rfl⟩
  | cons arrival arrivals ih =>
      cases size with
      | zero => exact ⟨arrival :: arrivals, rfl, rfl, rfl⟩
      | succ size =>
          cases arrival with
          | piece first more =>
              simp only [arrived, List.length_cons, List.length_append] at h
              by_cases hshort : more.length ≤ size
              · -- The whole piece is taken and the rest comes from later ones.
                obtain ⟨rest, hrecv, harr, hall⟩ := ih (size - more.length) (by omega)
                refine ⟨rest, ?_, ?_, ?_⟩
                · simp [recvExact, hshort, hrecv, RecvResult.prepend, arrived,
                    List.take_append, List.take_of_length_le hshort]
                · simp [arrived, List.drop_append, List.drop_of_length_le hshort, harr]
                · simp [allBytes, arrived, List.take_append, List.take_of_length_le hshort, hall]
              · have hle : size ≤ more.length := Nat.le_of_not_le hshort
                refine ⟨putBack (more.drop size) arrivals, ?_, ?_, ?_⟩
                · simp [recvExact, hshort, arrived, List.take_append_of_le_length hle]
                · simp [arrived, List.drop_append_of_le_length hle]
                · simp [allBytes, arrived, List.take_append_of_le_length hle,
                    ← List.append_assoc, List.take_append_drop]
          | retry => exact ih (size + 1) h
          | failed why => simp [arrived] at h

/-- Too few bytes come in before something fails. -/
theorem recvExact_of_lt (size : Nat) (arrivals : List Arrival)
    (h : (arrived arrivals).length < size) :
    ∃ why rest, recvExact size arrivals = .failed why rest := by
  induction arrivals generalizing size with
  | nil =>
      obtain ⟨size, rfl⟩ := Nat.exists_eq_succ_of_ne_zero (Nat.ne_zero_of_lt h)
      exact ⟨_, _, rfl⟩
  | cons arrival arrivals ih =>
      obtain ⟨size, rfl⟩ := Nat.exists_eq_succ_of_ne_zero (Nat.ne_zero_of_lt h)
      cases arrival with
      | piece first more =>
          simp only [arrived, List.length_cons, List.length_append] at h
          obtain ⟨why, rest, hrecv⟩ := ih (size - more.length) (by omega)
          refine ⟨why, rest, ?_⟩
          rw [recvExact, if_pos (by omega), hrecv]
          rfl
      | retry => exact ih (size + 1) h
      | failed why => exact ⟨why, arrivals, rfl⟩

/-! ## The response reader -/

/-- Why no response could be read. -/
inductive ReadError where
  | io (why : IoFailure)
  /-- The length word is out of range. -/
  | badLength
  /-- The bytes read do not decode. -/
  | undecodable
deriving DecidableEq

/-- The length word of a header. -/
def headerWord : List UInt8 → UInt32
  | a :: b :: c :: d :: _ => getWord a b c d
  | _ => 0

/-- The size of the buffer `frame`. -/
def frameBufferSize (totalLen : UInt32) : UInt32 := headerSize + totalLen - serialIdSize

/-- A zeroed buffer of `size` bytes with header and body copied into it. -/
def frameBuffer (size : Nat) (header body : List UInt8) : List UInt8 :=
  (header ++ body).take size ++ List.replicate (size - (header ++ body).length) 0

/-- The part of `call` and of one turn of `callStream` that reads a response. -/
def readResponse (arrivals : List Arrival) : Except ReadError RpcResponse × List Arrival :=
  match recvExact headerSize.toNat arrivals with
  | .failed why rest => (.error (.io why), rest)
  | .received header rest =>
      let totalLen := headerWord header
      if totalLen < serialIdSize ∨ totalLen > maxFrameSize then (.error .badLength, rest)
      else
        match recvExact (payloadSizeOf totalLen).toNat rest with
        | .failed why rest' => (.error (.io why), rest')
        | .received body rest' =>
            match tryDecodeFrame (frameBuffer (frameBufferSize totalLen).toNat header body) with
            | .complete serialId payload _ => (.ok ⟨serialId, payload⟩, rest')
            | _ => (.error .undecodable, rest')

/-- What `call` reports. -/
def ReadError.ofCall : ReadError → RpcCallStatus × String
  | .io why => (why.status, why.status.name)
  | .badLength => (.protocolError, "invalid response frame length")
  | .undecodable => (.protocolError, "decode response frame failed")

/-- What `callStream` reports. -/
def ReadError.ofCallStream : ReadError → RpcCallStatus × String
  | .io why => (why.status, why.status.name)
  | .badLength => (.protocolError, "invalid stream response frame length")
  | .undecodable => (.protocolError, "decode stream response frame failed")

theorem toNat_frameBufferSize {total : UInt32} (hlow : serialIdSize ≤ total)
    (hhigh : total ≤ maxFrameSize) : (frameBufferSize total).toNat = 4 + total.toNat := by
  have hlow' : 4 ≤ total.toNat := hlow
  have hhigh' : total.toNat ≤ maxFrameSize.toNat := hhigh
  rw [toNat_maxFrameSize] at hhigh'
  have hsum : (headerSize + total).toNat = 8 + total.toNat := by
    rw [UInt32.toNat_add, toNat_headerSize]
    omega
  have hle : serialIdSize ≤ headerSize + total := by
    show serialIdSize.toNat ≤ (headerSize + total).toNat
    rw [hsum, toNat_serialIdSize]
    omega
  rw [frameBufferSize, UInt32.toNat_sub_of_le _ _ hle, hsum, toNat_serialIdSize]
  omega

@[simp] theorem headerWord_putWord (w : UInt32) (rest : List UInt8) :
    headerWord (putWord w ++ rest) = w :=
  getWord_putWord w

/-- The reader when at least a header comes in: the header is taken off the
stream and its length word looked at. -/
theorem readResponse_header {arrivals : List Arrival} {w i : UInt32} {body : List UInt8}
    (h : arrived arrivals = putWord w ++ putWord i ++ body) :
    ∃ rest, recvExact headerSize.toNat arrivals = .received (putWord w ++ putWord i) rest ∧
      arrived rest = body ∧ allBytes arrivals = putWord w ++ putWord i ++ allBytes rest := by
  have hlen : headerSize.toNat ≤ (arrived arrivals).length := by
    simp [h, putWord]
  obtain ⟨rest, hrecv, harr, hall⟩ := recvExact_of_le _ arrivals hlen
  have htake : (arrived arrivals).take headerSize.toNat = putWord w ++ putWord i := by
    rw [h]
    exact List.take_left' rfl
  have hdrop : (arrived arrivals).drop headerSize.toNat = body := by
    rw [h]
    exact List.drop_left' rfl
  rw [htake] at hrecv hall
  rw [hdrop] at harr
  exact ⟨rest, hrecv, harr, hall⟩

theorem readResponse_short {arrivals : List Arrival} (h : (arrived arrivals).length < 8) :
    ∃ why rest, readResponse arrivals = (.error (.io why), rest) := by
  obtain ⟨why, rest, hrecv⟩ := recvExact_of_lt headerSize.toNat arrivals h
  refine ⟨why, rest, ?_⟩
  rw [readResponse, hrecv]

/-- A length word out of range is reported as soon as the header is there. -/
theorem readResponse_badLength {arrivals : List Arrival} {w i : UInt32} {body : List UInt8}
    (h : arrived arrivals = putWord w ++ putWord i ++ body)
    (hbad : w < serialIdSize ∨ w > maxFrameSize) :
    ∃ rest, readResponse arrivals = (.error .badLength, rest) := by
  obtain ⟨rest, hrecv, -, -⟩ := readResponse_header h
  refine ⟨rest, ?_⟩
  rw [readResponse, hrecv]
  simp only [headerWord_putWord, if_pos hbad]

/-- The body does not come in whole. -/
theorem readResponse_shortBody {arrivals : List Arrival} {w i : UInt32} {body : List UInt8}
    (h : arrived arrivals = putWord w ++ putWord i ++ body)
    (hgood : ¬ (w < serialIdSize ∨ w > maxFrameSize))
    (hshort : body.length < (payloadSizeOf w).toNat) :
    ∃ why rest, readResponse arrivals = (.error (.io why), rest) := by
  obtain ⟨rest, hrecv, harr, -⟩ := readResponse_header h
  rw [← harr] at hshort
  obtain ⟨why, rest', hbody⟩ := recvExact_of_lt _ rest hshort
  refine ⟨why, rest', ?_⟩
  rw [readResponse, hrecv]
  simp only [headerWord_putWord, if_neg hgood, hbody]

theorem frameBuffer_eq {size : Nat} {header body : List UInt8}
    (h : (header ++ body).length = size) : frameBuffer size header body = header ++ body := by
  rw [frameBuffer, List.take_of_length_le h.le, h, Nat.sub_self]
  simp

/-- Header and body come in: the buffer decodes, although its size and that of
the body are computed separately. -/
theorem readResponse_whole {arrivals : List Arrival} {w i : UInt32} {body : List UInt8}
    (h : arrived arrivals = putWord w ++ putWord i ++ body)
    (hlow : serialIdSize ≤ w) (hhigh : w ≤ maxFrameSize)
    (hfull : (payloadSizeOf w).toNat ≤ body.length) :
    ∃ rest, readResponse arrivals = (.ok ⟨i, body.take (payloadSizeOf w).toNat⟩, rest) ∧
      arrived rest = body.drop (payloadSizeOf w).toNat ∧
      allBytes arrivals =
        putWord w ++ putWord i ++ body.take (payloadSizeOf w).toNat ++ allBytes rest := by
  have hgood : ¬ (w < serialIdSize ∨ w > maxFrameSize) := by
    rintro (hlt | hgt)
    · exact UInt32.not_lt.mpr hlow hlt
    · exact UInt32.not_lt.mpr hhigh hgt
  obtain ⟨rest, hrecv, harr, hall⟩ := readResponse_header h
  rw [← harr] at hfull
  obtain ⟨rest', hbody, harr', hall'⟩ := recvExact_of_le _ rest hfull
  rw [harr] at hfull hbody harr' hall'
  have hw : 4 ≤ w.toNat := hlow
  have hsize := toNat_payloadSizeOf hlow
  have htaken : (body.take (payloadSizeOf w).toNat).length = (payloadSizeOf w).toNat := by
    rw [List.length_take]
    omega
  have hbuffer : frameBuffer (frameBufferSize w).toNat (putWord w ++ putWord i)
      (body.take (payloadSizeOf w).toNat) =
        putWord w ++ putWord i ++ body.take (payloadSizeOf w).toNat := by
    apply frameBuffer_eq
    rw [toNat_frameBufferSize hlow hhigh]
    simp only [List.length_append, putWord_length, htaken]
    omega
  have hcomplete : tryDecodeFrame (putWord w ++ putWord i ++ body.take (payloadSizeOf w).toNat) =
      .complete i (body.take (payloadSizeOf w).toNat) (frameSizeOf w).toNat := by
    rw [tryDecodeFrame_word, if_neg (UInt32.not_lt.mpr hlow), if_neg (UInt32.not_lt.mpr hhigh),
      if_neg (by rw [htaken, toNat_frameSizeOf hhigh]; omega), List.take_of_length_le htaken.le]
  refine ⟨rest', ?_, harr', ?_⟩
  · rw [readResponse, hrecv]
    simp only [headerWord_putWord, if_neg hgood, hbody, hbuffer, hcomplete]
  · rw [hall, hall']
    simp only [List.append_assoc]

/-! ## Agreement with the codec -/

/-- A whole frame is read, and nothing behind it. -/
theorem readResponse_complete {arrivals : List Arrival} {serialId : UInt32}
    {payload : List UInt8} {n : Nat}
    (h : tryDecodeFrame (arrived arrivals) = .complete serialId payload n) :
    ∃ rest, readResponse arrivals = (.ok ⟨serialId, payload⟩, rest) ∧
      arrived rest = (arrived arrivals).drop n ∧
      allBytes arrivals = (arrived arrivals).take n ++ allBytes rest := by
  by_cases hshort : (arrived arrivals).length < 8
  · rw [tryDecodeFrame_short hshort] at h
    cases h
  obtain ⟨w, i, body, hwords⟩ := exists_words (Nat.le_of_not_lt hshort)
  rw [hwords, tryDecodeFrame_word] at h
  split at h
  · cases h
  split at h
  · cases h
  split at h
  · cases h
  rename_i hlow hhigh hfull
  have hlow' := UInt32.not_lt.mp hlow
  have hhigh' := UInt32.not_lt.mp hhigh
  have hw : 4 ≤ w.toNat := hlow'
  have hbody := toNat_payloadSizeOf hlow'
  have hframe := toNat_frameSizeOf hhigh'
  obtain ⟨rfl, rfl, rfl⟩ := DecodeStatus.complete.inj h
  obtain ⟨rest, hread, harr, hall⟩ := readResponse_whole hwords hlow' hhigh' (by omega)
  have hsplit : (frameSizeOf w).toNat =
      (putWord w ++ putWord i).length + (payloadSizeOf w).toNat := by
    simp only [List.length_append, putWord_length]
    omega
  refine ⟨rest, hread, ?_, ?_⟩
  · rw [hwords, hsplit, List.drop_length_add_append, harr]
  · rw [hwords, hsplit, List.take_length_add_append, hall]

theorem readResponse_incomplete {arrivals : List Arrival} {n : Nat}
    (h : tryDecodeFrame (arrived arrivals) = .incomplete n) :
    ∃ why rest, readResponse arrivals = (.error (.io why), rest) := by
  by_cases hshort : (arrived arrivals).length < 8
  · exact readResponse_short hshort
  obtain ⟨w, i, body, hwords⟩ := exists_words (Nat.le_of_not_lt hshort)
  rw [hwords, tryDecodeFrame_word] at h
  split at h
  · cases h
  split at h
  · cases h
  split at h
  · rename_i hlow hhigh hpart
    have hw : 4 ≤ w.toNat := UInt32.not_lt.mp hlow
    have hbody := toNat_payloadSizeOf (UInt32.not_lt.mp hlow)
    have hframe := toNat_frameSizeOf (UInt32.not_lt.mp hhigh)
    exact readResponse_shortBody hwords (by rintro (hlt | hgt); exacts [hlow hlt, hhigh hgt])
      (by omega)
  · cases h

theorem readResponse_invalid {arrivals : List Arrival}
    (h : tryDecodeFrame (arrived arrivals) = .malformed ∨
      tryDecodeFrame (arrived arrivals) = .tooLarge) :
    ∃ rest, readResponse arrivals = (.error .badLength, rest) := by
  by_cases hshort : (arrived arrivals).length < 8
  · rw [tryDecodeFrame_short hshort] at h
    simp at h
  obtain ⟨w, i, body, hwords⟩ := exists_words (Nat.le_of_not_lt hshort)
  refine readResponse_badLength hwords ?_
  rw [hwords, tryDecodeFrame_word] at h
  by_cases hlow : w < serialIdSize
  · exact .inl hlow
  by_cases hhigh : w > maxFrameSize
  · exact .inr hhigh
  · rw [if_neg hlow, if_neg hhigh] at h
    split at h <;> simp at h

/-- What a response that was read says about the stream. -/
theorem complete_of_readResponse {arrivals rest : List Arrival} {response : RpcResponse}
    (h : readResponse arrivals = (.ok response, rest)) :
    ∃ n, tryDecodeFrame (arrived arrivals) =
        .complete response.serialId response.payload n ∧
      arrived rest = (arrived arrivals).drop n ∧
      allBytes arrivals = (arrived arrivals).take n ++ allBytes rest := by
  cases hdec : tryDecodeFrame (arrived arrivals) with
  | complete serialId payload n =>
      obtain ⟨rest', hread, harr, hall⟩ := readResponse_complete hdec
      obtain ⟨hresponse, hrest⟩ := Prod.mk.inj (hread.symm.trans h)
      obtain rfl := Except.ok.inj hresponse
      obtain rfl := hrest
      exact ⟨n, rfl, harr, hall⟩
  | incomplete n =>
      obtain ⟨why, rest', hread⟩ := readResponse_incomplete hdec
      cases (Prod.mk.inj (hread.symm.trans h)).1
  | malformed =>
      obtain ⟨rest', hread⟩ := readResponse_invalid (.inl hdec)
      cases (Prod.mk.inj (hread.symm.trans h)).1
  | tooLarge =>
      obtain ⟨rest', hread⟩ := readResponse_invalid (.inr hdec)
      cases (Prod.mk.inj (hread.symm.trans h)).1

/-- The incremental reader agrees with the codec on whatever comes in, however
it is cut into pieces: it yields a response exactly when the stream begins with
a whole frame, which it takes off, it reports a protocol error exactly for a bad
length word, and its last error branch is never reached. -/
theorem response_reader_agrees (arrivals : List Arrival) :
    (∀ response, (readResponse arrivals).1 = .ok response ↔
      ∃ n, tryDecodeFrame (arrived arrivals) =
        .complete response.serialId response.payload n) ∧
    (∀ serialId payload n,
      tryDecodeFrame (arrived arrivals) = .complete serialId payload n →
        arrived (readResponse arrivals).2 = (arrived arrivals).drop n) ∧
    (∀ report ∈ [ReadError.ofCall, ReadError.ofCallStream],
      (∃ e, (readResponse arrivals).1 = .error e ∧ (report e).1 = .protocolError) ↔
        tryDecodeFrame (arrived arrivals) = .malformed ∨
          tryDecodeFrame (arrived arrivals) = .tooLarge) ∧
    (readResponse arrivals).1 ≠ .error .undecodable := by
  have hio : ∀ report ∈ [ReadError.ofCall, ReadError.ofCallStream], ∀ why,
      (report (.io why)).1 ≠ .protocolError := by
    intro report hreport why
    simp only [List.mem_cons, List.not_mem_nil, or_false] at hreport
    rcases hreport with rfl | rfl <;> cases why <;> decide
  have hbad : ∀ report ∈ [ReadError.ofCall, ReadError.ofCallStream],
      (report .badLength).1 = .protocolError := by
    intro report hreport
    simp only [List.mem_cons, List.not_mem_nil, or_false] at hreport
    rcases hreport with rfl | rfl <;> rfl
  cases hdec : tryDecodeFrame (arrived arrivals) with
  | complete serialId payload n =>
      obtain ⟨rest, hread, harr, -⟩ := readResponse_complete hdec
      rw [hread]
      refine ⟨?_, ?_, ?_, by simp⟩
      · rintro ⟨serialId', payload'⟩
        constructor
        · rintro ⟨⟩
          exact ⟨n, rfl⟩
        · rintro ⟨m, hm⟩
          obtain ⟨rfl, rfl, rfl⟩ := DecodeStatus.complete.inj hm
          rfl
      · rintro serialId' payload' m hm
        obtain ⟨-, -, rfl⟩ := DecodeStatus.complete.inj hm
        exact harr
      · simp
  | incomplete n =>
      obtain ⟨why, rest, hread⟩ := readResponse_incomplete hdec
      rw [hread]
      refine ⟨by simp, by simp, ?_, by simp⟩
      intro report hreport
      simpa using hio report hreport why
  | malformed =>
      obtain ⟨rest, hread⟩ := readResponse_invalid (.inl hdec)
      rw [hread]
      refine ⟨by simp, by simp, ?_, by simp⟩
      intro report hreport
      simpa using hbad report hreport
  | tooLarge =>
      obtain ⟨rest, hread⟩ := readResponse_invalid (.inr hdec)
      rw [hread]
      refine ⟨by simp, by simp, ?_, by simp⟩
      intro report hreport
      simpa using hbad report hreport

end Corpcron
