import Corpcron.Lib.BigEndian

/-!
# The frame codec

`protocol.hpp`: a frame is a 4-byte length, a 4-byte serial id and the payload,
both words big-endian.  The length counts the serial id and the payload but not
itself.  Byte strings are lists of `UInt8`; the lengths inside a frame are
computed in 32 bits, as in the source, and `std::size_t` is a natural number.

`frame_codec` collects what the two directions have to do with each other: what
is encoded decodes to itself whatever follows it, no proper initial part of it
is taken for a frame, what decodes is an encoding, and no length wraps.
-/

namespace Corpcron

open Lib

/-! ## Constants -/

/-- `kHeaderSize`. -/
def headerSize : UInt32 := 8

/-- `kSerialIdSize`. -/
def serialIdSize : UInt32 := 4

/-- `kMaxFrameSize`, a bound on the length word. -/
def maxFrameSize : UInt32 := 4 * 1024 * 1024

/-- `kMaxPayloadSize`. -/
def maxPayloadSize : Nat := (maxFrameSize - serialIdSize).toNat

/-- `kRpcErrorSerialId`. -/
def rpcErrorSerialId : UInt32 := 100

@[simp] theorem toNat_headerSize : headerSize.toNat = 8 := rfl
@[simp] theorem toNat_serialIdSize : serialIdSize.toNat = 4 := rfl
@[simp] theorem toNat_maxFrameSize : maxFrameSize.toNat = 4194304 := rfl
@[simp] theorem maxPayloadSize_eq : maxPayloadSize = 4194300 := rfl

/-! ## Encoding -/

/-- `total_len` of `tryEncode`. -/
def totalLen (payload : List UInt8) : UInt32 :=
  serialIdSize + UInt32.ofNat payload.length

/-- `tryEncode`: the buffer, or `none` when the payload is too long. -/
def tryEncode (serialId : UInt32) (payload : List UInt8) : Option (List UInt8) :=
  if payload.length > maxPayloadSize then none
  else some (putWord (totalLen payload) ++ putWord serialId ++ payload)

/-- `encode`; the error is the `std::length_error`. -/
def encode (serialId : UInt32) (payload : List UInt8) : Except String (List UInt8) :=
  match tryEncode serialId payload with
  | some buffer => .ok buffer
  | none => .error "RPC payload exceeds max frame size"

/-! ## Decoding -/

/-- `DecodeStatus` with the output parameters that are written for it. -/
inductive DecodeStatus where
  | complete (serialId : UInt32) (payload : List UInt8) (frameSize : Nat)
  | incomplete (frameSize : Nat)
  | malformed
  | tooLarge
deriving DecidableEq

/-- `frame_size` for a length word. -/
def frameSizeOf (totalLen : UInt32) : UInt32 := 4 + totalLen

/-- The length of the payload for a length word. -/
def payloadSizeOf (totalLen : UInt32) : UInt32 := totalLen - serialIdSize

/-- `tryDecodeFrame`. -/
def tryDecodeFrame : List UInt8 → DecodeStatus
  | a :: b :: c :: d :: i :: j :: k :: l :: body =>
      let totalLen := getWord a b c d
      if totalLen < serialIdSize then .malformed
      else if totalLen > maxFrameSize then .tooLarge
      else if 8 + body.length < (frameSizeOf totalLen).toNat then
        .incomplete (frameSizeOf totalLen).toNat
      else
        .complete (getWord i j k l) (body.take (payloadSizeOf totalLen).toNat)
          (frameSizeOf totalLen).toNat
  -- Fewer bytes than a header.
  | _ => .incomplete 0

/-- `decode`. -/
def decode (data : List UInt8) : Option (UInt32 × List UInt8) :=
  match tryDecodeFrame data with
  | .complete serialId payload _ => some (serialId, payload)
  | _ => none

/-! ## Lengths -/

theorem toNat_totalLen {payload : List UInt8} (hfit : payload.length ≤ maxPayloadSize) :
    (totalLen payload).toNat = 4 + payload.length := by
  rw [maxPayloadSize_eq] at hfit
  have hlen : (UInt32.ofNat payload.length).toNat = payload.length :=
    UInt32.toNat_ofNat_of_lt' (by simp only [UInt32.size]; omega)
  rw [totalLen, UInt32.toNat_add, hlen, toNat_serialIdSize]
  omega

theorem toNat_frameSizeOf {total : UInt32} (htotal : total ≤ maxFrameSize) :
    (frameSizeOf total).toNat = 4 + total.toNat := by
  have hle : total.toNat ≤ maxFrameSize.toNat := htotal
  have hfour : (4 : UInt32).toNat = 4 := rfl
  rw [toNat_maxFrameSize] at hle
  rw [frameSizeOf, UInt32.toNat_add, hfour]
  omega

theorem toNat_payloadSizeOf {total : UInt32} (htotal : serialIdSize ≤ total) :
    (payloadSizeOf total).toNat = total.toNat - 4 := by
  rw [payloadSizeOf, UInt32.toNat_sub_of_le _ _ htotal, toNat_serialIdSize]

/-! ## What the two functions return -/

theorem tryEncode_eq_none_iff (serialId : UInt32) (payload : List UInt8) :
    tryEncode serialId payload = none ↔ maxPayloadSize < payload.length := by
  unfold tryEncode
  split <;> simp_all

theorem tryEncode_eq_some_iff (serialId : UInt32) (payload frame : List UInt8) :
    tryEncode serialId payload = some frame ↔
      payload.length ≤ maxPayloadSize ∧
        frame = putWord (totalLen payload) ++ putWord serialId ++ payload := by
  unfold tryEncode
  split
  · rename_i hlong
    simp only [reduceCtorEq, false_iff, not_and]
    intro hfit
    omega
  · rename_i hfit
    constructor
    · rintro ⟨⟩
      exact ⟨Nat.le_of_not_lt hfit, rfl⟩
    · rintro ⟨-, rfl⟩
      rfl

theorem encode_eq_ok_iff (serialId : UInt32) (payload frame : List UInt8) :
    encode serialId payload = .ok frame ↔ tryEncode serialId payload = some frame := by
  unfold encode
  split <;> simp_all

/-- The length of an encoding. -/
theorem length_of_tryEncode {serialId : UInt32} {payload frame : List UInt8}
    (h : tryEncode serialId payload = some frame) : frame.length = 8 + payload.length := by
  obtain ⟨-, rfl⟩ := (tryEncode_eq_some_iff _ _ _).mp h
  simp [putWord]
  omega

/-- The decoder on eight bytes and more: the first four decide how many bytes
there have to be. -/
theorem tryDecodeFrame_word (w i : UInt32) (body : List UInt8) :
    tryDecodeFrame (putWord w ++ putWord i ++ body) =
      if w < serialIdSize then .malformed
      else if w > maxFrameSize then .tooLarge
      else if 8 + body.length < (frameSizeOf w).toNat then .incomplete (frameSizeOf w).toNat
      else .complete i (body.take (payloadSizeOf w).toNat) (frameSizeOf w).toNat := by
  simp only [putWord, List.cons_append, List.nil_append, tryDecodeFrame, getWord_putWord]

theorem tryDecodeFrame_short {data : List UInt8} (hshort : data.length < 8) :
    tryDecodeFrame data = .incomplete 0 := by
  unfold tryDecodeFrame
  split
  · simp only [List.length_cons] at hshort
    omega
  · rfl

/-- Every byte string with a header is two words and a body. -/
theorem exists_words {data : List UInt8} (hlong : 8 ≤ data.length) :
    ∃ w i body, data = putWord w ++ putWord i ++ body := by
  match data, hlong with
  | a :: b :: c :: d :: i :: j :: k :: l :: body, _ =>
      refine ⟨getWord a b c d, getWord i j k l, body, ?_⟩
      rw [putWord_getWord, putWord_getWord]
      rfl

/-! ## Round trips -/

theorem serialIdSize_le_totalLen {payload : List UInt8}
    (hfit : payload.length ≤ maxPayloadSize) : serialIdSize ≤ totalLen payload := by
  show serialIdSize.toNat ≤ (totalLen payload).toNat
  rw [toNat_totalLen hfit, toNat_serialIdSize]
  omega

theorem totalLen_le_maxFrameSize {payload : List UInt8}
    (hfit : payload.length ≤ maxPayloadSize) : totalLen payload ≤ maxFrameSize := by
  show (totalLen payload).toNat ≤ maxFrameSize.toNat
  rw [toNat_totalLen hfit, toNat_maxFrameSize]
  rw [maxPayloadSize_eq] at hfit
  omega

/-- The size `tryEncode` gives its buffer is the size of what it writes. -/
theorem toNat_frameSizeOf_totalLen {payload : List UInt8}
    (hfit : payload.length ≤ maxPayloadSize) :
    (frameSizeOf (totalLen payload)).toNat = 8 + payload.length := by
  rw [toNat_frameSizeOf (totalLen_le_maxFrameSize hfit), toNat_totalLen hfit]
  omega

/-- What is encoded decodes to itself, whatever follows it. -/
theorem tryDecodeFrame_tryEncode {serialId : UInt32} {payload frame : List UInt8}
    (h : tryEncode serialId payload = some frame) (suffix : List UInt8) :
    tryDecodeFrame (frame ++ suffix) = .complete serialId payload frame.length := by
  have hlen := length_of_tryEncode h
  obtain ⟨hfit, rfl⟩ := (tryEncode_eq_some_iff _ _ _).mp h
  have hlow := serialIdSize_le_totalLen hfit
  have hhigh := totalLen_le_maxFrameSize hfit
  have hframe := toNat_frameSizeOf_totalLen hfit
  have hbody : (payloadSizeOf (totalLen payload)).toNat = payload.length := by
    rw [toNat_payloadSizeOf hlow, toNat_totalLen hfit]
    omega
  have hfull : ¬ 8 + (payload ++ suffix).length < 8 + payload.length := by
    simp only [List.length_append]
    omega
  rw [hlen, List.append_assoc, tryDecodeFrame_word, if_neg (UInt32.not_lt.mpr hlow),
    if_neg (UInt32.not_lt.mpr hhigh), hframe, hbody, if_neg hfull, List.take_left]

/-- What decodes begins with its encoding. -/
theorem tryEncode_of_complete {data : List UInt8} {serialId : UInt32} {payload : List UInt8}
    {n : Nat} (h : tryDecodeFrame data = .complete serialId payload n) :
    n ≤ data.length ∧ tryEncode serialId payload = some (data.take n) := by
  by_cases hshort : data.length < 8
  · rw [tryDecodeFrame_short hshort] at h
    cases h
  obtain ⟨w, i, body, rfl⟩ := exists_words (Nat.le_of_not_lt hshort)
  rw [tryDecodeFrame_word] at h
  split at h
  · cases h
  split at h
  · cases h
  split at h
  · cases h
  rename_i hlow hhigh hfull
  have hlow' := UInt32.not_lt.mp hlow
  have hhigh' := UInt32.not_lt.mp hhigh
  obtain ⟨rfl, rfl, rfl⟩ := DecodeStatus.complete.inj h
  have hw : 4 ≤ w.toNat := hlow'
  have hw' : w.toNat ≤ maxFrameSize.toNat := hhigh'
  rw [toNat_maxFrameSize] at hw'
  rw [toNat_frameSizeOf hhigh'] at hfull ⊢
  rw [toNat_payloadSizeOf hlow']
  have hbody : (body.take (w.toNat - 4)).length = w.toNat - 4 := by
    rw [List.length_take]
    omega
  have hfit : (body.take (w.toNat - 4)).length ≤ maxPayloadSize := by
    rw [hbody, maxPayloadSize_eq]
    omega
  have htotal : totalLen (body.take (w.toNat - 4)) = w := by
    apply UInt32.toNat_inj.mp
    rw [toNat_totalLen hfit, hbody]
    omega
  refine ⟨?_, (tryEncode_eq_some_iff _ _ _).mpr ⟨hfit, ?_⟩⟩
  · simp only [List.length_append, putWord_length]
    omega
  · rw [htotal, List.take_append, List.take_of_length_le (by simp; omega)]
    congr 1
    simp only [List.length_append, putWord_length]
    congr 1
    omega

theorem payload_le_of_complete {data : List UInt8} {serialId : UInt32} {payload : List UInt8}
    {n : Nat} (h : tryDecodeFrame data = .complete serialId payload n) :
    payload.length ≤ maxPayloadSize :=
  ((tryEncode_eq_some_iff _ _ _).mp (tryEncode_of_complete h).2).1

/-! ## More bytes do not change an answer -/

theorem tryDecodeFrame_append_of_complete {data : List UInt8} {serialId : UInt32}
    {payload : List UInt8} {n : Nat}
    (h : tryDecodeFrame data = .complete serialId payload n) (more : List UInt8) :
    tryDecodeFrame (data ++ more) = .complete serialId payload n := by
  obtain ⟨hle, henc⟩ := tryEncode_of_complete h
  have hsplit : data ++ more = data.take n ++ (data.drop n ++ more) := by
    rw [← List.append_assoc, List.take_append_drop]
  rw [hsplit, tryDecodeFrame_tryEncode henc, List.length_take, Nat.min_eq_left hle]

/-- A bad length word is seen as soon as the header is there. -/
theorem tryDecodeFrame_append_of_invalid {data : List UInt8}
    (h : tryDecodeFrame data = .malformed ∨ tryDecodeFrame data = .tooLarge)
    (more : List UInt8) : tryDecodeFrame (data ++ more) = tryDecodeFrame data := by
  by_cases hshort : data.length < 8
  · rw [tryDecodeFrame_short hshort] at h
    simp at h
  obtain ⟨w, i, body, rfl⟩ := exists_words (Nat.le_of_not_lt hshort)
  rw [List.append_assoc, tryDecodeFrame_word, tryDecodeFrame_word]
  rw [tryDecodeFrame_word] at h
  by_cases hlow : w < serialIdSize
  · rw [if_pos hlow, if_pos hlow]
  by_cases hhigh : w > maxFrameSize
  · rw [if_neg hlow, if_pos hhigh, if_neg hlow, if_pos hhigh]
  · rw [if_neg hlow, if_neg hhigh] at h
    split at h <;> simp at h

/-- No proper initial part of a frame is taken for a frame or for an error. -/
theorem tryDecodeFrame_of_proper {serialId : UInt32} {payload pre more : List UInt8}
    (h : tryEncode serialId payload = some (pre ++ more)) (hmore : more ≠ []) :
    ∃ n, tryDecodeFrame pre = .incomplete n := by
  have hwhole := tryDecodeFrame_tryEncode h []
  rw [List.append_nil] at hwhole
  cases hpre : tryDecodeFrame pre with
  | incomplete n => exact ⟨n, rfl⟩
  | complete i p n =>
      have hagain := tryDecodeFrame_append_of_complete hpre more
      rw [hwhole] at hagain
      have hsize : (pre ++ more).length = n := (DecodeStatus.complete.inj hagain).2.2
      have hle := (tryEncode_of_complete hpre).1
      have hpos : 0 < more.length := List.length_pos_iff.mpr hmore
      rw [List.length_append] at hsize
      omega
  | malformed =>
      have hagain := tryDecodeFrame_append_of_invalid (.inl hpre) more
      rw [hwhole, hpre] at hagain
      cases hagain
  | tooLarge =>
      have hagain := tryDecodeFrame_append_of_invalid (.inr hpre) more
      rw [hwhole, hpre] at hagain
      cases hagain

/-- Everything the encoder and the decoder have to do with each other: the
round trip in both directions, self-delimitation, the size limit, and the
lengths computed in 32 bits. -/
theorem frame_codec :
    (∀ (serialId : UInt32) (payload suffix : List UInt8), payload.length ≤ maxPayloadSize →
      ∃ frame, encode serialId payload = .ok frame ∧
        tryDecodeFrame (frame ++ suffix) = .complete serialId payload frame.length ∧
        ∀ pre more, frame = pre ++ more → more ≠ [] →
          ∃ n, tryDecodeFrame pre = .incomplete n) ∧
    (∀ (data : List UInt8) (serialId : UInt32) (payload : List UInt8) (n : Nat),
      tryDecodeFrame data = .complete serialId payload n →
        payload.length ≤ maxPayloadSize ∧ n ≤ data.length ∧
          encode serialId payload = .ok (data.take n)) ∧
    (∀ (serialId : UInt32) (payload : List UInt8),
      tryEncode serialId payload = none ↔ maxPayloadSize < payload.length) ∧
    (∀ payload : List UInt8, payload.length ≤ maxPayloadSize →
      (totalLen payload).toNat = 4 + payload.length ∧
        (frameSizeOf (totalLen payload)).toNat = 8 + payload.length) ∧
    (∀ total : UInt32, serialIdSize ≤ total → total ≤ maxFrameSize →
      (frameSizeOf total).toNat = 4 + total.toNat ∧
        (payloadSizeOf total).toNat = total.toNat - 4) := by
  refine ⟨?_, ?_, tryEncode_eq_none_iff, ?_, ?_⟩
  · intro serialId payload suffix hfit
    have henc := (tryEncode_eq_some_iff serialId payload _).mpr ⟨hfit, rfl⟩
    refine ⟨_, (encode_eq_ok_iff _ _ _).mpr henc, tryDecodeFrame_tryEncode henc suffix, ?_⟩
    intro pre more hframe hmore
    rw [hframe] at henc
    exact tryDecodeFrame_of_proper henc hmore
  · intro data serialId payload n h
    obtain ⟨hle, henc⟩ := tryEncode_of_complete h
    exact ⟨payload_le_of_complete h, hle, (encode_eq_ok_iff _ _ _).mpr henc⟩
  · intro payload hfit
    exact ⟨toNat_totalLen hfit, toNat_frameSizeOf_totalLen hfit⟩
  · intro total hlow hhigh
    exact ⟨toNat_frameSizeOf hhigh, toNat_payloadSizeOf hlow⟩

/-- The codec at the frame of an echo request followed by one more byte. -/
theorem frame_codec_echo :
    ∃ frame, encode 1 [104, 105] = .ok frame ∧
      tryDecodeFrame (frame ++ [7]) = .complete 1 [104, 105] frame.length := by
  obtain ⟨frame, henc, hdec, -⟩ := frame_codec.1 1 [104, 105] [7] (by decide)
  exact ⟨frame, henc, hdec⟩

end Corpcron
