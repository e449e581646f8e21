import Http2.Hpack.Table

/-! The events of `src/event.rs`. -/
namespace Http2

open Hpack

inductive Event
  | connectionPreface
  | settingsReceived (ack : Bool)
  | headersReceived (streamId : Nat) (headers : List HeaderField) (endStream : Bool)
      (protocol : Option Bytes)
  | dataReceived (streamId : Nat) (data : Bytes) (endStream : Bool)
  | trailersReceived (streamId : Nat) (trailers : List HeaderField)
  | streamReset (streamId : Nat) (errorCode : ErrorCode) (connectionWindowConsumed : Nat)
  | dataDiscarded (streamId connectionWindowConsumed : Nat)
  | streamClosed (streamId : Nat)
  | pingReceived (opaqueData : Bytes) (ack : Bool)
  | goawayReceived (lastStreamId : Nat) (errorCode : ErrorCode) (debugData : Bytes)
  | windowUpdateReceived (streamId increment : Nat)
  | priorityUpdateReceived (streamId : Nat) (priorityFieldValue : Bytes)
  deriving DecidableEq, Repr

end Http2
