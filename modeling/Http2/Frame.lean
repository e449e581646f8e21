import Http2.Lib.BigEndian
import Http2.Settings

/-! Frames (`src/frame.rs`, `src/frame/flags.rs`) and their encoder (`src/frame/encoder.rs`).
Stream identifiers are the raw 31-bit numbers: 0 is the connection, odd numbers are the
client's streams and even ones the server's. -/
namespace Http2

open Lib.BigEndian

inductive FrameType
  | data | headers | priority | rstStream | settings | pushPromise | ping | goaway | windowUpdate
  | continuation | priorityUpdate
  deriving DecidableEq, Repr

namespace FrameType

def fromU8 (value : UInt8) : Option FrameType :=
  if value = 0x00 then some data
  else if value = 0x01 then some headers
  else if value = 0x02 then some priority
  else if value = 0x03 then some rstStream
  else if value = 0x04 then some settings
  else if value = 0x05 then some pushPromise
  else if value = 0x06 then some ping
  else if value = 0x07 then some goaway
  else if value = 0x08 then some windowUpdate
  else if value = 0x09 then some continuation
  else if value = 0x10 then some priorityUpdate
  else none

def asU8 : FrameType → UInt8
  | data => 0x00
  | headers => 0x01
  | priority => 0x02
  | rstStream => 0x03
  | settings => 0x04
  | pushPromise => 0x05
  | ping => 0x06
  | goaway => 0x07
  | windowUpdate => 0x08
  | continuation => 0x09
  | priorityUpdate => 0x10

theorem fromU8_asU8 (t : FrameType) : fromU8 t.asU8 = some t := by
  cases t <;> rfl

end FrameType

namespace FrameFlags

def endStream : UInt8 := 0x01
def ack : UInt8 := 0x01
def endHeaders : UInt8 := 0x04
def padded : UInt8 := 0x08
def priority : UInt8 := 0x20

/-- `FrameFlags::contains`. -/
def contains (bits flag : UInt8) : Bool := bits &&& flag = flag

/-- `FrameFlags::set`, under a condition. -/
def setIf (bits : UInt8) (cond : Bool) (flag : UInt8) : UInt8 := if cond then bits ||| flag else bits

end FrameFlags

structure FrameHeader where
  length : Nat
  frameType : UInt8
  flags : UInt8
  streamId : Nat
  deriving DecidableEq, Repr

structure DataFrame where
  streamId : Nat
  endStream : Bool
  data : Bytes
  padLength : Option UInt8
  deriving DecidableEq, Repr

/-- The deprecated priority fields of HEADERS and PRIORITY. -/
structure PriorityFields where
  exclusive : Bool
  streamDependency : Nat
  weight : UInt8
  deriving DecidableEq, Repr

structure HeadersFrame where
  streamId : Nat
  endStream : Bool
  endHeaders : Bool
  priorityFields : Option PriorityFields
  headerBlockFragment : Bytes
  padLength : Option UInt8
  deriving DecidableEq, Repr

structure ContinuationFrame where
  streamId : Nat
  endHeaders : Bool
  headerBlockFragment : Bytes
  deriving DecidableEq, Repr

structure SettingsFrame where
  ack : Bool
  settings : List Setting
  deriving DecidableEq, Repr

structure GoawayFrame where
  lastStreamId : Nat
  errorCode : Nat
  debugData : Bytes
  deriving DecidableEq, Repr

inductive Frame
  | data (f : DataFrame)
  | headers (f : HeadersFrame)
  | priority (streamId : Nat) (fields : PriorityFields)
  | rstStream (streamId errorCode : Nat)
  | settings (f : SettingsFrame)
  | pushPromise (streamId : Nat)
  | ping (ack : Bool) (opaqueData : Bytes)
  | goaway (f : GoawayFrame)
  | windowUpdate (streamId increment : Nat)
  | continuation (f : ContinuationFrame)
  | priorityUpdate (prioritizedElementId : Nat) (priorityFieldValue : Bytes)
  | unknown (header : FrameHeader) (payload : Bytes)
  deriving DecidableEq, Repr

/-- What flow control charges for a DATA frame: the data, the padding and its length octet. -/
def DataFrame.flowControlSize (f : DataFrame) : Nat :=
  match f.padLength with
  | some padLength => 1 + f.data.length + padLength.toNat
  | none => f.data.length

/-! ## Encoding -/

/-- 31 bits with the reserved bit clear. -/
def toBe31 (n : Nat) : Bytes := toBe 4 (n % 2 ^ 31)

def FrameHeader.encode (h : FrameHeader) : Bytes :=
  toBe 3 h.length ++ [h.frameType, h.flags] ++ toBe31 h.streamId

/-- A frame with its header. The source writes lengths through `as u32`, and the header holds 24
bits of them. -/
def frameBytes (frameType : FrameType) (flags : UInt8) (streamId : Nat) (payload : Bytes) : Bytes :=
  FrameHeader.encode ⟨payload.length % 2 ^ 32, frameType.asU8, flags, streamId⟩ ++ payload

/-- The payload of a frame that may be padded. -/
def padPayload (padLength : Option UInt8) (body : Bytes) : Bytes :=
  match padLength with
  | some padLen => padLen :: (body ++ List.replicate padLen.toNat 0)
  | none => body

def Setting.encode (s : Setting) : Bytes := toBe 2 s.asWire.1.toNat ++ toBe 4 s.asWire.2.toNat

def DataFrame.encode (f : DataFrame) : Bytes :=
  let flags := FrameFlags.setIf 0 f.endStream FrameFlags.endStream
  let flags := FrameFlags.setIf flags f.padLength.isSome FrameFlags.padded
  frameBytes .data flags f.streamId (padPayload f.padLength f.data)

/-- `encode_headers`: the priority fields are not sent. -/
def HeadersFrame.encode (f : HeadersFrame) : Bytes :=
  let flags := FrameFlags.setIf 0 f.endStream FrameFlags.endStream
  let flags := FrameFlags.setIf flags f.endHeaders FrameFlags.endHeaders
  let flags := FrameFlags.setIf flags f.padLength.isSome FrameFlags.padded
  frameBytes .headers flags f.streamId (padPayload f.padLength f.headerBlockFragment)

def SettingsFrame.encode (f : SettingsFrame) : Bytes :=
  frameBytes .settings (FrameFlags.setIf 0 f.ack FrameFlags.ack) 0
    (if f.ack then [] else f.settings.flatMap Setting.encode)

def GoawayFrame.encode (f : GoawayFrame) : Bytes :=
  frameBytes .goaway 0 0 (toBe31 f.lastStreamId ++ toBe 4 f.errorCode ++ f.debugData)

def ContinuationFrame.encode (f : ContinuationFrame) : Bytes :=
  frameBytes .continuation
    (FrameFlags.setIf 0 f.endHeaders FrameFlags.endHeaders) f.streamId f.headerBlockFragment

/-- `FrameEncoder::encode`. -/
def Frame.encode : Frame → Except Error Bytes
  | data f => .ok f.encode
  | headers f => .ok f.encode
  | priority _ _ =>
    .error (.protocolError "PRIORITY frame is deprecated in RFC 9113 and should not be sent")
  | rstStream streamId errorCode => .ok (frameBytes .rstStream 0 streamId (toBe 4 errorCode))
  | settings f => .ok f.encode
  | pushPromise _ =>
    .error (.protocolError "PUSH_PROMISE is not supported and should not be sent")
  | ping isAck opaqueData => .ok (frameBytes .ping (FrameFlags.setIf 0 isAck FrameFlags.ack) 0 opaqueData)
  | goaway f => .ok f.encode
  | windowUpdate streamId increment =>
    .ok (frameBytes .windowUpdate 0 streamId (toBe31 increment))
  | continuation f => .ok f.encode
  | priorityUpdate prioritizedElementId priorityFieldValue =>
    .ok (frameBytes .priorityUpdate 0 0 (toBe31 prioritizedElementId ++ priorityFieldValue))
  | unknown header payload =>
    .ok (FrameHeader.encode { header with length := payload.length % 2 ^ 32 } ++ payload)

/-- What a frame looks like to the peer; nothing for those that are never sent. -/
def Frame.wire (f : Frame) : Bytes :=
  match f.encode with
  | .ok bytes => bytes
  | .error _ => []

end Http2
