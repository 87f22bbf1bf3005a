import Corpcron.Rpc.Protocol

/-!
# Responses and `RpcError`

`RpcResponse` is what a dispatcher hands to the connection.  A failed request is
answered by an `RpcError` message with its own serial id; its wire format is
written out, since its size decides whether the answer to an oversized response
fits in a frame itself.

`RpcError.parse` reads exactly what `RpcError.serialize` writes.  The parser of
the protobuf library accepts more (other field orders, unknown fields); it
enters the results below as a parameter of which only `parse_serialize` is
assumed.
-/

namespace Corpcron

/-- `RpcResponse`. -/
structure RpcResponse where
  serialId : UInt32
  payload : List UInt8
deriving DecidableEq

/-- The enumeration `ErrorCode` of `rpc.proto`. -/
inductive RpcErrorCode where
  | ok
  | badRequest
  | unknownMethod
  | payloadTooLarge
  | internalError
  | dbError
  | handlerNotFound
  | unauthorized
  | deadlineExceeded
  | canceled
  | resourceExhausted
  | unavailable
deriving DecidableEq

/-- The numbers of the codes. -/
def RpcErrorCode.number : RpcErrorCode → Nat
  | .ok => 0
  | .badRequest => 1
  | .unknownMethod => 2
  | .payloadTooLarge => 3
  | .internalError => 4
  | .dbError => 5
  | .handlerNotFound => 6
  | .unauthorized => 7
  | .deadlineExceeded => 8
  | .canceled => 9
  | .resourceExhausted => 10
  | .unavailable => 11

/-- The code of a number. -/
def RpcErrorCode.ofNumber? : Nat → Option RpcErrorCode
  | 0 => some .ok
  | 1 => some .badRequest
  | 2 => some .unknownMethod
  | 3 => some .payloadTooLarge
  | 4 => some .internalError
  | 5 => some .dbError
  | 6 => some .handlerNotFound
  | 7 => some .unauthorized
  | 8 => some .deadlineExceeded
  | 9 => some .canceled
  | 10 => some .resourceExhausted
  | 11 => some .unavailable
  | _ => none

theorem RpcErrorCode.ofNumber?_number (code : RpcErrorCode) :
    RpcErrorCode.ofNumber? code.number = some code := by
  cases code <;> rfl

theorem RpcErrorCode.number_lt (code : RpcErrorCode) : code.number < 128 := by
  cases code <;> decide

/-- The message `RpcError`. -/
structure RpcError where
  code : RpcErrorCode
  message : String

/-! ## Wire format -/

/-- The bytes of a string. -/
def stringBytes (s : String) : List UInt8 := s.toByteArray.data.toList

/-- A base-128 number, least significant group first. -/
def varint (n : Nat) : List UInt8 :=
  if n < 128 then [UInt8.ofNat n] else UInt8.ofNat (n % 128 + 128) :: varint (n / 128)

/-- The number at the front of the input and what follows it. -/
def readVarint : List UInt8 → Option (Nat × List UInt8)
  | [] => none
  | b :: rest =>
      if b.toNat < 128 then some (b.toNat, rest)
      else (readVarint rest).map fun (high, rest') => (b.toNat - 128 + 128 * high, rest')

/-- `SerializeToString` of an `RpcError`: fields with default values are left
out. -/
def RpcError.serialize (e : RpcError) : List UInt8 :=
  (if e.code.number = 0 then [] else 0x08 :: varint e.code.number) ++
    if stringBytes e.message = [] then []
    else 0x12 :: (varint (stringBytes e.message).length ++ stringBytes e.message)

/-- The code at the front of an `RpcError`, and what follows it. -/
def RpcError.parseCode : List UInt8 → Option (RpcErrorCode × List UInt8)
  | [] => some (.ok, [])
  | tag :: rest =>
      if tag = 0x08 then
        (readVarint rest).bind fun (number, rest') =>
          (RpcErrorCode.ofNumber? number).map fun code => (code, rest')
      else some (.ok, tag :: rest)

/-- The bytes of the message of an `RpcError`. -/
def RpcError.parseMessage : List UInt8 → Option (List UInt8)
  | [] => some []
  | tag :: rest =>
      if tag = 0x12 then
        (readVarint rest).bind fun (size, body) => if body.length = size then some body else none
      else none

/-- The inverse of `RpcError.serialize`. -/
def RpcError.parse (data : List UInt8) : Option RpcError :=
  (RpcError.parseCode data).bind fun (code, rest) =>
    (RpcError.parseMessage rest).bind fun bytes =>
      (String.fromUTF8? ⟨bytes.toArray⟩).map fun message => ⟨code, message⟩

theorem varint_of_lt {n : Nat} (h : n < 128) : varint n = [UInt8.ofNat n] := by
  rw [varint, if_pos h]

theorem readVarint_varint (n : Nat) (rest : List UInt8) :
    readVarint (varint n ++ rest) = some (n, rest) := by
  induction n using Nat.strongRecOn with
  | ind n ih =>
      rw [varint]
      by_cases hsmall : n < 128
      · have hbyte : (UInt8.ofNat n).toNat = n := UInt8.toNat_ofNat_of_lt' (by
          simp only [UInt8.size]
          omega)
        rw [if_pos hsmall]
        simp only [List.cons_append, List.nil_append, readVarint, hbyte, if_pos hsmall]
      · have hbyte : (UInt8.ofNat (n % 128 + 128)).toNat = n % 128 + 128 :=
          UInt8.toNat_ofNat_of_lt' (by
            simp only [UInt8.size]
            omega)
        have hhigh := ih (n / 128) (by omega)
        rw [if_neg hsmall]
        simp only [List.cons_append, readVarint, hbyte, hhigh, Option.map_some]
        rw [if_neg (by omega)]
        congr 2
        omega

theorem fromUTF8?_stringBytes (s : String) :
    String.fromUTF8? ⟨(stringBytes s).toArray⟩ = some s := by
  have hbytes : (⟨(stringBytes s).toArray⟩ : ByteArray) = s.toByteArray := by
    simp [stringBytes]
  rw [hbytes, String.fromUTF8?, dif_pos s.isValidUTF8]
  rfl

theorem stringBytes_injective {s t : String} (h : stringBytes s = stringBytes t) : s = t := by
  have hsome := fromUTF8?_stringBytes s
  rw [h, fromUTF8?_stringBytes] at hsome
  exact (Option.some.inj hsome).symm

theorem RpcError.parseMessage_field (bytes : List UInt8) :
    RpcError.parseMessage
      (if bytes = [] then [] else 0x12 :: (varint bytes.length ++ bytes)) = some bytes := by
  by_cases hempty : bytes = []
  · rw [if_pos hempty, hempty]
    rfl
  · rw [if_neg hempty]
    simp [RpcError.parseMessage, readVarint_varint]

theorem RpcError.parseCode_field (code : RpcErrorCode) (bytes : List UInt8) :
    RpcError.parseCode ((if code.number = 0 then [] else 0x08 :: varint code.number) ++
      if bytes = [] then [] else 0x12 :: (varint bytes.length ++ bytes)) =
    some (code, if bytes = [] then [] else 0x12 :: (varint bytes.length ++ bytes)) := by
  by_cases hzero : code.number = 0
  · -- The code is left out, and the tag of the message is not that of a code.
    have hcode : code = .ok := by
      cases code <;> first | rfl | exact absurd hzero (by decide)
    rw [if_pos hzero, List.nil_append, hcode]
    by_cases hempty : bytes = []
    · rw [if_pos hempty]
      rfl
    · rw [if_neg hempty]
      rfl
  · rw [if_neg hzero]
    simp [RpcError.parseCode, readVarint_varint, RpcErrorCode.ofNumber?_number]

/-- Parsing undoes serialization. -/
theorem RpcError.parse_serialize (e : RpcError) : RpcError.parse e.serialize = some e := by
  simp [RpcError.parse, RpcError.serialize, RpcError.parseCode_field,
    RpcError.parseMessage_field, fromUTF8?_stringBytes]

/-! ## `RpcDispatcher::error` -/

/-- `RpcDispatcher::error`. -/
def RpcResponse.error (code : RpcErrorCode) (message : String) : RpcResponse :=
  ⟨rpcErrorSerialId, RpcError.serialize ⟨code, message⟩⟩

/-- An error with a short text fits in a frame. -/
theorem error_fits (code : RpcErrorCode) (message : String)
    (hshort : (stringBytes message).length < 128) :
    (RpcResponse.error code message).payload.length ≤ maxPayloadSize := by
  have hcode : (if code.number = 0 then [] else 0x08 :: varint code.number).length ≤ 2 := by
    rw [varint_of_lt code.number_lt]
    split <;> simp
  have hmessage : (if stringBytes message = [] then []
      else 0x12 :: (varint (stringBytes message).length ++ stringBytes message)).length ≤ 130 := by
    rw [varint_of_lt hshort]
    split
    · simp
    · simp only [List.length_cons, List.length_append, List.length_nil]
      omega
  rw [maxPayloadSize_eq]
  simp only [RpcResponse.error, RpcError.serialize, List.length_append]
  omega

end Corpcron
