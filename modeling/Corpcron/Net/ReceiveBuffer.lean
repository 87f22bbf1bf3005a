import Corpcron.Net.ClientHandler

/-!
# The receive buffer of a connection

A peer decides how long a frame it announces, and the connection handler keeps
what it has received until the frame is complete.  The decoder looks at the
length as soon as there is a header and refuses one above `maxFrameSize`, so
what the inner loop leaves in the buffer is less than a frame of that size
(`length_of_incomplete`), and with a chunk on top of it less than 4096 bytes
more.

`processIn` is the inner loop with a bound on its turns.  Every turn that goes
on takes eight bytes or more off the buffer, so a bound that is enough can be
read off the buffer (`processIn_eq`).
-/

namespace Corpcron

/-! ## The decoder -/

/-- The decoder asks for more only if there is less than the longest frame. -/
theorem length_of_incomplete {data : List UInt8} {n : Nat}
    (h : tryDecodeFrame data = .incomplete n) : data.length < 4 + maxFrameSize.toNat := by
  rw [toNat_maxFrameSize]
  rcases Nat.lt_or_ge data.length 8 with hshort | hlong
  · omega
  · obtain ⟨w, i, body, rfl⟩ := exists_words hlong
    rw [tryDecodeFrame_word] at h
    split at h
    · cases h
    split at h
    · cases h
    split at h
    · rename_i hfits hless
      have hle : w ≤ maxFrameSize := UInt32.not_lt.mp hfits
      have hle' : w.toNat ≤ maxFrameSize.toNat := hle
      rw [toNat_frameSizeOf hle] at hless
      rw [toNat_maxFrameSize] at hle'
      simp only [Lib.putWord, List.length_append, List.length_cons, List.length_nil]
      omega
    · cases h

/-- A frame has a header, and it is in the buffer. -/
theorem frameSize_of_complete {data : List UInt8} {serialId : UInt32} {payload : List UInt8}
    {n : Nat} (h : tryDecodeFrame data = .complete serialId payload n) :
    8 ≤ n ∧ n ≤ data.length := by
  obtain ⟨hle, henc⟩ := tryEncode_of_complete h
  have hlen := length_of_tryEncode henc
  rw [List.length_take] at hlen
  exact ⟨by omega, hle⟩

/-! ## The inner loop -/

namespace Connection

theorem process_last (dispatcher : Dispatcher) (c : Connection) {request : RpcRequest} {n : Nat}
    (h : tryDecodeFrame c.readBuffer = .complete request.serialId request.payload n)
    (hclosed : (c.handle dispatcher request n).closed = true) :
    c.process dispatcher = c.handle dispatcher request n := by
  rw [process]
  split <;> simp_all

@[simp] theorem handle_readBuffer (dispatcher : Dispatcher) (c : Connection)
    (request : RpcRequest) (n : Nat) :
    (c.handle dispatcher request n).readBuffer = c.readBuffer.drop n := by
  rw [handle, respond_readBuffer]

/-- Induction along the inner loop: it stops before a frame, after one, or goes
on. -/
theorem process_induction (dispatcher : Dispatcher) {motive : Connection → Prop}
    (incomplete : ∀ c n, tryDecodeFrame c.readBuffer = .incomplete n → motive c)
    (invalid : ∀ c, tryDecodeFrame c.readBuffer = .malformed ∨
      tryDecodeFrame c.readBuffer = .tooLarge → motive c)
    (last : ∀ (c : Connection) (request : RpcRequest) (n : Nat),
      tryDecodeFrame c.readBuffer = .complete request.serialId request.payload n →
      (c.handle dispatcher request n).closed = true → motive c)
    (next : ∀ (c : Connection) (request : RpcRequest) (n : Nat),
      tryDecodeFrame c.readBuffer = .complete request.serialId request.payload n →
      (c.handle dispatcher request n).closed = false →
      motive (c.handle dispatcher request n) → motive c) (c : Connection) : motive c := by
  induction hlen : c.readBuffer.length using Nat.strongRecOn generalizing c with
  | ind len ih =>
      cases h : tryDecodeFrame c.readBuffer with
      | incomplete n => exact incomplete c n h
      | malformed => exact invalid c (.inl h)
      | tooLarge => exact invalid c (.inr h)
      | complete serialId payload n =>
          obtain ⟨hpos, hle⟩ := frameSize_of_complete h
          cases hclosed : (c.handle dispatcher ⟨serialId, payload⟩ n).closed with
          | true => exact last c ⟨serialId, payload⟩ n h hclosed
          | false =>
              refine next c ⟨serialId, payload⟩ n h hclosed (ih _ ?_ _ rfl)
              rw [handle_readBuffer, List.length_drop]
              omega

/-- What the inner loop leaves, if it does not close the connection. -/
theorem length_readBuffer_process (dispatcher : Dispatcher) (c : Connection)
    (hopen : (c.process dispatcher).closed = false) :
    (c.process dispatcher).readBuffer.length < 4 + maxFrameSize.toNat := by
  induction c using process_induction dispatcher with
  | incomplete c n h =>
      rw [process_incomplete dispatcher c h]
      exact length_of_incomplete h
  | invalid c h =>
      rw [process_invalid dispatcher c h] at hopen
      cases hopen
  | last c request n h hclosed =>
      rw [process_last dispatcher c h hclosed, hclosed] at hopen
      cases hopen
  | next c request n h hgoes ih =>
      rw [process_complete dispatcher c h hgoes] at hopen ⊢
      exact ih hopen

/-- The inner loop in at most the given number of turns. -/
def processIn (dispatcher : Dispatcher) : Nat → Connection → Option Connection
  | 0, _ => none
  | turns + 1, c =>
      match tryDecodeFrame c.readBuffer with
      | .incomplete _ => some c
      | .malformed => some { c with closed := true }
      | .tooLarge => some { c with closed := true }
      | .complete serialId payload frameSize =>
          let c' := c.handle dispatcher ⟨serialId, payload⟩ frameSize
          if c'.closed then some c' else processIn dispatcher turns c'

/-- One turn for every eight bytes in the buffer and one more are enough. -/
theorem processIn_eq (dispatcher : Dispatcher) (c : Connection) (turns : Nat)
    (hturns : c.readBuffer.length < 8 * turns) :
    processIn dispatcher turns c = some (c.process dispatcher) := by
  induction c using process_induction dispatcher generalizing turns with
  | incomplete c n h =>
      obtain ⟨turns, rfl⟩ : ∃ k, turns = k + 1 := ⟨turns - 1, by omega⟩
      rw [processIn, h, process_incomplete dispatcher c h]
  | invalid c h =>
      obtain ⟨turns, rfl⟩ : ∃ k, turns = k + 1 := ⟨turns - 1, by omega⟩
      rw [process_invalid dispatcher c h, processIn]
      rcases h with h | h <;> rw [h]
  | last c request n h hclosed =>
      obtain ⟨turns, rfl⟩ : ∃ k, turns = k + 1 := ⟨turns - 1, by omega⟩
      rw [process_last dispatcher c h hclosed, processIn, h]
      exact if_pos hclosed
  | next c request n h hgoes ih =>
      obtain ⟨turns, rfl⟩ : ∃ k, turns = k + 1 := ⟨turns - 1, by omega⟩
      obtain ⟨hpos, hle⟩ := frameSize_of_complete h
      have hlater := ih turns (by rw [handle_readBuffer, List.length_drop]; omega)
      rw [process_complete dispatcher c h hgoes, processIn, h, ← hlater]
      exact if_neg (by rw [hgoes]; exact Bool.false_ne_true)

/-! ## All moments of a connection -/

/-- The values of the buffer in the inner loop: at the head of every turn, and
where the loop is left. -/
def processBuffers (dispatcher : Dispatcher) (c : Connection) : List (List UInt8) :=
  match _h : tryDecodeFrame c.readBuffer with
  | .incomplete _ => [c.readBuffer]
  | .malformed => [c.readBuffer]
  | .tooLarge => [c.readBuffer]
  | .complete serialId payload frameSize =>
      let c' := c.handle dispatcher ⟨serialId, payload⟩ frameSize
      c.readBuffer :: if c'.closed then [c'.readBuffer] else c'.processBuffers dispatcher
termination_by c.readBuffer.length
decreasing_by
  obtain ⟨hpos, hle⟩ := frameSize_of_complete _h
  rw [handle_readBuffer, List.length_drop]
  omega

/-- The values of the buffer while `clientHandler` runs. -/
def buffers (dispatcher : Dispatcher) (c : Connection) : List ReadEvent → List (List UInt8)
  | [] => [c.readBuffer]
  | .chunk bytes :: events =>
      let received := { c with readBuffer := c.readBuffer ++ bytes.val }
      let c' := received.process dispatcher
      c.readBuffer :: (received.processBuffers dispatcher ++
        if c'.closed then [] else c'.buffers dispatcher events)
  | .retry :: events => c.buffers dispatcher events
  | .eof :: _ => [c.readBuffer]
  | .failed :: _ => [c.readBuffer]
  | .stopping :: _ => [c.readBuffer]

section

variable {dispatcher : Dispatcher} {c : Connection} {request : RpcRequest} {n : Nat}

theorem processBuffers_incomplete (h : tryDecodeFrame c.readBuffer = .incomplete n) :
    c.processBuffers dispatcher = [c.readBuffer] := by
  rw [processBuffers]
  split <;> simp_all

theorem processBuffers_invalid (h : tryDecodeFrame c.readBuffer = .malformed ∨
    tryDecodeFrame c.readBuffer = .tooLarge) :
    c.processBuffers dispatcher = [c.readBuffer] := by
  rw [processBuffers]
  split <;> simp_all

theorem processBuffers_last
    (h : tryDecodeFrame c.readBuffer = .complete request.serialId request.payload n)
    (hclosed : (c.handle dispatcher request n).closed = true) :
    c.processBuffers dispatcher = [c.readBuffer, c.readBuffer.drop n] := by
  rw [processBuffers]
  split <;> simp_all

theorem processBuffers_next
    (h : tryDecodeFrame c.readBuffer = .complete request.serialId request.payload n)
    (hgoes : (c.handle dispatcher request n).closed = false) :
    c.processBuffers dispatcher =
      c.readBuffer :: (c.handle dispatcher request n).processBuffers dispatcher := by
  rw [processBuffers]
  split <;> simp_all

end

/-- In the inner loop the buffer only gets shorter. -/
theorem length_of_mem_processBuffers (dispatcher : Dispatcher) (c : Connection) :
    ∀ b ∈ c.processBuffers dispatcher, b.length ≤ c.readBuffer.length := by
  induction c using process_induction dispatcher with
  | incomplete c n h => simp [processBuffers_incomplete h]
  | invalid c h => simp [processBuffers_invalid h]
  | last c request n h hclosed => simp [processBuffers_last h hclosed]
  | next c request n h hgoes ih =>
      intro b hb
      rw [processBuffers_next h hgoes] at hb
      rcases List.mem_cons.mp hb with rfl | hb
      · exact Nat.le_refl _
      · have hle := ih b hb
        rw [handle_readBuffer, List.length_drop] at hle
        omega

/-- The last value in the inner loop is the one it leaves. -/
theorem getLast?_processBuffers (dispatcher : Dispatcher) (c : Connection) :
    (c.processBuffers dispatcher).getLast? = some (c.process dispatcher).readBuffer := by
  induction c using process_induction dispatcher with
  | incomplete c n h => simp [processBuffers_incomplete h, process_incomplete dispatcher c h]
  | invalid c h => simp [processBuffers_invalid h, process_invalid dispatcher c h]
  | last c request n h hclosed =>
      simp [processBuffers_last h hclosed, process_last dispatcher c h hclosed]
  | next c request n h hgoes ih =>
      rw [processBuffers_next h hgoes, process_complete dispatcher c h hgoes,
        List.getLast?_cons, ih, Option.getD_some]

/-- From a moment at which the handler is about to read: no value of the buffer
to come is longer than what was there, or what the inner loop can leave, and a
chunk. -/
theorem length_of_mem_buffers (dispatcher : Dispatcher) (c : Connection)
    (events : List ReadEvent) (hidle : c.readBuffer.length < 4 + maxFrameSize.toNat) :
    ∀ b ∈ c.buffers dispatcher events, b.length ≤ 4 + maxFrameSize.toNat + 4095 := by
  induction events generalizing c with
  | nil =>
      intro b hb
      rw [List.mem_singleton.mp hb]
      omega
  | cons event events ih =>
      cases event with
      | chunk bytes =>
          intro b hb
          simp only [buffers, List.mem_cons, List.mem_append] at hb
          rcases hb with rfl | hb | hb
          · omega
          · have hle := length_of_mem_processBuffers dispatcher _ b hb
            have hchunk := bytes.property.2
            rw [List.length_append] at hle
            omega
          · split at hb
            · cases hb
            · rename_i hopen
              rw [Bool.not_eq_true] at hopen
              exact ih _ (length_readBuffer_process dispatcher _ hopen) b hb
      | retry => exact ih c hidle
      | eof =>
          intro b hb
          rw [List.mem_singleton.mp hb]
          omega
      | failed =>
          intro b hb
          rw [List.mem_singleton.mp hb]
          omega
      | stopping =>
          intro b hb
          rw [List.mem_singleton.mp hb]
          omega

/-- The last value is the one `clientHandler` ends with. -/
theorem getLast?_buffers (dispatcher : Dispatcher) (c : Connection) (events : List ReadEvent) :
    (c.buffers dispatcher events).getLast? =
      some (c.clientHandler dispatcher events).readBuffer := by
  induction events generalizing c with
  | nil => rfl
  | cons event events ih =>
      cases event with
      | chunk bytes =>
          rw [buffers, clientHandler, List.getLast?_cons, List.getLast?_append]
          split
          · simp [getLast?_processBuffers]
          · rw [ih]
            rfl
      | retry => exact ih c
      | eof => rfl
      | failed => rfl
      | stopping => rfl

end Connection

/-- Whatever a peer sends and however it arrives: what the inner loop leaves is
less than a frame of the greatest length, and at no time is there more than that
and a chunk in the buffer.  The inner loop ends within one turn for every eight
bytes and one more, since every frame takes at least eight bytes away. -/
theorem receive_buffer_bounded (dispatcher : Dispatcher) (sends : List SendEvent)
    (events : List ReadEvent) :
    (∀ c : Connection, (c.process dispatcher).closed = false →
      (c.process dispatcher).readBuffer.length < 4 + maxFrameSize.toNat) ∧
    (∀ b ∈ Connection.buffers dispatcher { sends := sends } events,
      b.length ≤ 4 + maxFrameSize.toNat + 4095) ∧
    (Connection.buffers dispatcher { sends := sends } events).getLast? =
      some (Connection.clientHandler dispatcher { sends := sends } events).readBuffer ∧
    (∀ c : Connection, Connection.processIn dispatcher (c.readBuffer.length / 8 + 1) c =
      some (c.process dispatcher)) ∧
    ∀ data serialId payload n, tryDecodeFrame data = .complete serialId payload n →
      8 ≤ n ∧ n ≤ data.length := by
  refine ⟨Connection.length_readBuffer_process dispatcher, ?_, ?_, ?_, ?_⟩
  · refine Connection.length_of_mem_buffers dispatcher _ events ?_
    rw [toNat_maxFrameSize]
    exact Nat.zero_lt_succ _
  · exact Connection.getLast?_buffers dispatcher _ events
  · intro c
    exact Connection.processIn_eq dispatcher c _ (by omega)
  · intro data serialId payload n h
    exact frameSize_of_complete h

/-- A header that announces the greatest length and nothing behind it, and the
shortest frame. -/
theorem receive_buffer_bounded_header :
    let c : Connection := { readBuffer := [0, 64, 0, 0, 0, 0, 0, 1] }
    tryDecodeFrame c.readBuffer = .incomplete (4 + 4194304) ∧
      (c.process fun _ _ => .returned []).readBuffer.length < 4 + 4194304 ∧
      tryDecodeFrame [0, 0, 0, 4, 0, 0, 0, 1] = .complete 1 [] 8 ∧ 8 ≤ 8 := by
  intro c
  have hheader : tryDecodeFrame c.readBuffer = .incomplete (4 + 4194304) := by decide
  have hframe : tryDecodeFrame [0, 0, 0, 4, 0, 0, 0, 1] = .complete 1 [] 8 := by decide
  obtain ⟨hopen, -, -, -, hsize⟩ := receive_buffer_bounded (fun _ _ => .returned []) [] []
  refine ⟨hheader, hopen c ?_, hframe, (hsize _ _ _ _ hframe).1⟩
  rw [Connection.process_incomplete _ c hheader]

end Corpcron
