import Http2.Lib.Utf8
import Http2.WebTransport.Varint

/-! The capsules of `src/webtransport/capsule.rs`, their encoder and their decoder. -/
namespace Http2.WebTransport

open Lib.BigEndian

/-- The octets of a string (`as_bytes`). -/
def utf8 (s : String) : Bytes := s.toByteArray.data.toList

/-- `String::from_utf8`. -/
def fromUtf8 (bytes : Bytes) : Option String := String.fromUTF8? ⟨bytes.toArray⟩

theorem fromUtf8_utf8 (s : String) : fromUtf8 (utf8 s) = some s := by
  simp only [fromUtf8, utf8, Array.toArray_toList]
  unfold String.fromUTF8?
  rw [dif_pos s.isValidUTF8]
  rfl

theorem utf8_eq (s : String) : utf8 s = Lib.Utf8.encode s.toList := by
  have h := String.toByteArray_ofList (l := s.toList)
  rw [String.ofList_toList] at h
  rw [utf8, h, List.utf8Encode, List.toList_data_toByteArray]
  rfl

theorem fromUtf8_encode (chars : List Char) :
    fromUtf8 (Lib.Utf8.encode chars) = some (String.ofList chars) := by
  have h := fromUtf8_utf8 (String.ofList chars)
  rwa [utf8_eq, String.toList_ofList] at h

namespace CapsuleType

def datagram : Nat := 0x00
def padding : Nat := 0x190B4D38
def wtResetStream : Nat := 0x190B4D39
def wtStopSending : Nat := 0x190B4D3A
def wtStreamFin : Nat := 0x190B4D3B
def wtStream : Nat := 0x190B4D3C
def wtMaxData : Nat := 0x190B4D3D
def wtMaxStreamData : Nat := 0x190B4D3E
def wtMaxStreamsBidi : Nat := 0x190B4D3F
def wtMaxStreamsUni : Nat := 0x190B4D40
def wtDataBlocked : Nat := 0x190B4D41
def wtStreamDataBlocked : Nat := 0x190B4D42
def wtStreamsBlockedBidi : Nat := 0x190B4D43
def wtStreamsBlockedUni : Nat := 0x190B4D44
def wtCloseSession : Nat := 0x2843
def wtDrainSession : Nat := 0x78AE

/-- The types that `decode_payload` tells apart. -/
def known : List Nat :=
  [datagram, padding, wtResetStream, wtStopSending, wtStreamFin, wtStream, wtMaxData,
    wtMaxStreamData, wtMaxStreamsBidi, wtMaxStreamsUni, wtDataBlocked, wtStreamDataBlocked,
    wtStreamsBlockedBidi, wtStreamsBlockedUni, wtCloseSession, wtDrainSession]

end CapsuleType

/-- `MAX_CLOSE_REASON_LEN`. -/
def maxCloseReasonLen : Nat := 1024

/-- `MAX_APPLICATION_ERROR_CODE`. -/
def maxApplicationErrorCode : Nat := 0xffffffff

inductive Capsule
  | datagram (data : Bytes)
  | padding (length : Nat)
  | wtResetStream (streamId errorCode reliableSize : Nat)
  | wtStopSending (streamId errorCode : Nat)
  | wtStream (streamId : Nat) (data : Bytes) (fin : Bool)
  | wtMaxData (maximum : Nat)
  | wtMaxStreamData (streamId maximum : Nat)
  | wtMaxStreams (maximum : Nat) (bidirectional : Bool)
  | wtDataBlocked (maximum : Nat)
  | wtStreamDataBlocked (streamId maximum : Nat)
  | wtStreamsBlocked (maximum : Nat) (bidirectional : Bool)
  | wtCloseSession (errorCode : UInt32) (reason : String)
  | wtDrainSession
  | unknown (capsuleType : Nat) (data : Bytes)
  deriving DecidableEq, Repr

/-! ## The encoder -/

/-- What the encoder writes in one go: a number through `encode_varint`, or octets as they are. -/
inductive Part
  | varint (value : Nat)
  | raw (bytes : Bytes)
  deriving DecidableEq, Repr

def Part.bytes : Part → Bytes
  | .varint value => Varint.bytes value
  | .raw bytes => bytes

namespace Capsule

open Varint CapsuleType

/-- `encode_header`. -/
def header (capsuleType length : Nat) : List Part := [.varint capsuleType, .varint length]

/-- What `CapsuleEncoder::encode` writes, in order. -/
def parts : Capsule → List Part
  | datagram data => header CapsuleType.datagram data.length ++ [.raw data]
  | padding length => header CapsuleType.padding length ++ [.raw (List.replicate length 0)]
  | wtResetStream streamId errorCode reliableSize =>
    header CapsuleType.wtResetStream
        (encodedLen streamId + encodedLen errorCode + encodedLen reliableSize) ++
      [.varint streamId, .varint errorCode, .varint reliableSize]
  | wtStopSending streamId errorCode =>
    header CapsuleType.wtStopSending (encodedLen streamId + encodedLen errorCode) ++
      [.varint streamId, .varint errorCode]
  | wtStream streamId data fin =>
    header (if fin then wtStreamFin else CapsuleType.wtStream)
        (encodedLen streamId + data.length) ++
      [.varint streamId, .raw data]
  | wtMaxData maximum => header CapsuleType.wtMaxData (encodedLen maximum) ++ [.varint maximum]
  | wtMaxStreamData streamId maximum =>
    header CapsuleType.wtMaxStreamData (encodedLen streamId + encodedLen maximum) ++
      [.varint streamId, .varint maximum]
  | wtMaxStreams maximum bidirectional =>
    header (if bidirectional then wtMaxStreamsBidi else wtMaxStreamsUni) (encodedLen maximum) ++
      [.varint maximum]
  | wtDataBlocked maximum =>
    header CapsuleType.wtDataBlocked (encodedLen maximum) ++ [.varint maximum]
  | wtStreamDataBlocked streamId maximum =>
    header CapsuleType.wtStreamDataBlocked (encodedLen streamId + encodedLen maximum) ++
      [.varint streamId, .varint maximum]
  | wtStreamsBlocked maximum bidirectional =>
    header (if bidirectional then wtStreamsBlockedBidi else wtStreamsBlockedUni)
        (encodedLen maximum) ++
      [.varint maximum]
  | wtCloseSession errorCode reason =>
    header CapsuleType.wtCloseSession (4 + (utf8 reason).length) ++
      [.raw (toBe 4 errorCode.toNat), .raw (utf8 reason)]
  | wtDrainSession => header CapsuleType.wtDrainSession 0
  | unknown capsuleType data => header capsuleType data.length ++ [.raw data]

/-- `CapsuleEncoder::encode`. -/
def encode (c : Capsule) : Bytes := c.parts.flatMap Part.bytes

/-- The encoder gets through: `encode_varint` is handed no number out of range. -/
def Encodable (c : Capsule) : Prop := ∀ value, .varint value ∈ c.parts → value ≤ maxValue

end Capsule

/-! ## The decoder -/

/-- Goes on when the condition holds. -/
def check (p : Prop) [Decidable p] (e : WtError) : WtResult Unit := if p then .ok () else .error e

/-- A number that must fill the payload. -/
def decodeMaximum (payload : Bytes) (trailing : String) : WtResult Nat := do
  let (maximum, len) ← Varint.decode payload
  check (len = payload.length) (.capsuleDecode trailing)
  return maximum

/-- Two numbers that must fill the payload. -/
def decodeStreamMaximum (payload : Bytes) (trailing : String) : WtResult (Nat × Nat) := do
  let (streamId, len) ← Varint.decode payload
  let (maximum, len') ← Varint.decode (payload.drop len)
  check (len + len' = payload.length) (.capsuleDecode trailing)
  return (streamId, maximum)

open CapsuleType in
/-- `CapsuleDecoder::decode_payload`. -/
def decodePayload (capsuleType : Nat) (payload : Bytes) : WtResult Capsule :=
  if capsuleType = datagram then .ok (.datagram payload)
  else if capsuleType = padding then .ok (.padding payload.length)
  else if capsuleType = wtResetStream then do
    let (streamId, len) ← Varint.decode payload
    let (errorCode, len') ← Varint.decode (payload.drop len)
    check (errorCode ≤ maxApplicationErrorCode) (.sessionStateError
      "WT_RESET_STREAM error code exceeds 0xffffffff (session error WT_ERROR)")
    let (reliableSize, len'') ← Varint.decode (payload.drop (len + len'))
    check (len + len' + len'' = payload.length)
      (.capsuleDecode "WT_RESET_STREAM payload has trailing bytes")
    return .wtResetStream streamId errorCode reliableSize
  else if capsuleType = wtStopSending then do
    let (streamId, len) ← Varint.decode payload
    let (errorCode, len') ← Varint.decode (payload.drop len)
    check (errorCode ≤ maxApplicationErrorCode) (.sessionStateError
      "WT_STOP_SENDING error code exceeds 0xffffffff (session error WT_ERROR)")
    check (len + len' = payload.length)
      (.capsuleDecode "WT_STOP_SENDING payload has trailing bytes")
    return .wtStopSending streamId errorCode
  else if capsuleType = wtStream ∨ capsuleType = wtStreamFin then do
    let (streamId, len) ← Varint.decode payload
    return .wtStream streamId (payload.drop len) (capsuleType == wtStreamFin)
  else if capsuleType = wtMaxData then do
    return .wtMaxData (← decodeMaximum payload "WT_MAX_DATA payload has trailing bytes")
  else if capsuleType = wtMaxStreamData then do
    let (streamId, maximum) ←
      decodeStreamMaximum payload "WT_MAX_STREAM_DATA payload has trailing bytes"
    return .wtMaxStreamData streamId maximum
  else if capsuleType = wtMaxStreamsBidi then do
    return .wtMaxStreams
      (← decodeMaximum payload "WT_MAX_STREAMS_BIDI payload has trailing bytes") true
  else if capsuleType = wtMaxStreamsUni then do
    return .wtMaxStreams
      (← decodeMaximum payload "WT_MAX_STREAMS_UNI payload has trailing bytes") false
  else if capsuleType = wtDataBlocked then do
    return .wtDataBlocked (← decodeMaximum payload "WT_DATA_BLOCKED payload has trailing bytes")
  else if capsuleType = wtStreamDataBlocked then do
    let (streamId, maximum) ←
      decodeStreamMaximum payload "WT_STREAM_DATA_BLOCKED payload has trailing bytes"
    return .wtStreamDataBlocked streamId maximum
  else if capsuleType = wtStreamsBlockedBidi then do
    return .wtStreamsBlocked
      (← decodeMaximum payload "WT_STREAMS_BLOCKED_BIDI payload has trailing bytes") true
  else if capsuleType = wtStreamsBlockedUni then do
    return .wtStreamsBlocked
      (← decodeMaximum payload "WT_STREAMS_BLOCKED_UNI payload has trailing bytes") false
  else if capsuleType = wtCloseSession then
    if payload.length < 4 then .error (.capsuleDecode "WT_CLOSE_SESSION payload too short")
    else if payload.length - 4 > maxCloseReasonLen then
      .error (.sessionStateError "WT_CLOSE_SESSION reason exceeds 1024 bytes")
    else
      let errorCode := UInt32.ofNat (ofBe (payload.take 4))
      if payload.length > 4 then
        match fromUtf8 (payload.drop 4) with
        | some reason => .ok (.wtCloseSession errorCode reason)
        | none => .error (.sessionStateError "invalid UTF-8 in close reason")
      else .ok (.wtCloseSession errorCode "")
  else if capsuleType = wtDrainSession then
    if payload = [] then .ok .wtDrainSession
    else .error (.capsuleDecode "WT_DRAIN_SESSION must have empty payload")
  else .ok (.unknown capsuleType payload)

/-- `varint::decode` where running out of octets only means to wait. -/
def awaitVarint (buf : Bytes) : WtResult (Option (Nat × Nat)) :=
  match Varint.decode buf with
  | .ok r => .ok (some r)
  | .error e => if e.kind = .incomplete then .ok none else .error e

/-- The capsule at the front of a buffer and how many octets it takes. -/
def parseCapsule (buf : Bytes) : WtResult (Option (Capsule × Nat)) := do
  if buf = [] then return none
  let some (capsuleType, typeLen) ← awaitVarint buf | return none
  if typeLen ≥ buf.length then return none
  let some (payloadLen, lenLen) ← awaitVarint (buf.drop typeLen) | return none
  let offset := typeLen + lenLen
  if buf.length < offset + payloadLen then return none
  let capsule ← decodePayload capsuleType ((buf.drop offset).take payloadLen)
  return some (capsule, offset + payloadLen)

/-- `DEFAULT_MAX_BUFFER_SIZE`, 16 MiB. -/
def defaultMaxBufferSize : Nat := 16 * 1024 * 1024

structure CapsuleDecoder where
  buffer : Bytes
  maxBufferSize : Nat
  deriving DecidableEq, Repr

namespace CapsuleDecoder

def new : CapsuleDecoder := ⟨[], defaultMaxBufferSize⟩

def feed (d : CapsuleDecoder) (data : Bytes) : WtResult CapsuleDecoder :=
  if data.length > d.maxBufferSize - d.buffer.length then
    .error (.invalidInput "capsule decoder buffer limit exceeded")
  else .ok { d with buffer := d.buffer ++ data }

/-- `decode`: a capsule leaves the buffer, everything else leaves it alone. -/
def decode (d : CapsuleDecoder) : WtResult (Option (Capsule × CapsuleDecoder)) := do
  let some (capsule, total) ← parseCapsule d.buffer | return none
  return some (capsule, { d with buffer := d.buffer.drop total })

end CapsuleDecoder

end Http2.WebTransport
