import Http2.BoundedMap
import Http2.Connection.State
import Http2.Lib.Maps
import Http2.WebTransport.Capsule
import Http2.WebTransport.Stream

/-! A WebTransport session (`WtSession` of `src/webtransport.rs`): its state, and the calls that an
application makes to send. -/
namespace Http2.WebTransport

open Lib Lib.Prog

inductive WtSessionState
  | initial | active | draining | closed
  deriving DecidableEq, Repr

inductive WtEvent
  | streamOpened (streamId : Nat) (bidirectional : Bool)
  | streamData (streamId : Nat) (data : Bytes) (fin : Bool)
  | streamReset (streamId errorCode : Nat)
  | stopSending (streamId errorCode : Nat)
  | datagramReceived (data : Bytes)
  | sessionDraining
  | sessionClosed (errorCode : UInt32) (reason : String)
  deriving DecidableEq, Repr

/-- The limits that one side announces. -/
structure WtConfig where
  initialMaxData : UInt64
  initialMaxStreamDataBidiLocal : UInt64
  initialMaxStreamDataBidiRemote : UInt64
  initialMaxStreamDataUni : UInt64
  initialMaxStreamsBidi : UInt64
  initialMaxStreamsUni : UInt64
  deriving DecidableEq, Repr

/-- `WtConfig::default`. -/
def WtConfig.default : WtConfig where
  initialMaxData := 1048576
  initialMaxStreamDataBidiLocal := 262144
  initialMaxStreamDataBidiRemote := 262144
  initialMaxStreamDataUni := 262144
  initialMaxStreamsBidi := 100
  initialMaxStreamsUni := 100

namespace WtConfig

/-- The limit on streams of one direction. -/
def initialMaxStreams (config : WtConfig) (bidirectional : Bool) : Nat :=
  if bidirectional then config.initialMaxStreamsBidi.toNat else config.initialMaxStreamsUni.toNat

/-- `WtConfig::peer_default`: what a peer grants that announces nothing. -/
def peerDefault : WtConfig where
  initialMaxData := 0
  initialMaxStreamDataBidiLocal := 0
  initialMaxStreamDataBidiRemote := 0
  initialMaxStreamDataUni := 0
  initialMaxStreamsBidi := 0
  initialMaxStreamsUni := 0

/-- A parameter that is announced replaces the value. -/
def overlay (value : UInt64) : Option UInt32 → UInt64
  | some v => v.toUInt64
  | none => value

def overlaySettings (config : WtConfig) (settings : Settings) : WtConfig where
  initialMaxData := overlay config.initialMaxData settings.wtInitialMaxData
  initialMaxStreamDataUni := overlay config.initialMaxStreamDataUni settings.wtInitialMaxStreamDataUni
  initialMaxStreamDataBidiLocal :=
    overlay config.initialMaxStreamDataBidiLocal settings.wtInitialMaxStreamDataBidiLocal
  initialMaxStreamDataBidiRemote :=
    overlay config.initialMaxStreamDataBidiRemote settings.wtInitialMaxStreamDataBidiRemote
  initialMaxStreamsBidi := overlay config.initialMaxStreamsBidi settings.wtInitialMaxStreamsBidi
  initialMaxStreamsUni := overlay config.initialMaxStreamsUni settings.wtInitialMaxStreamsUni

/-- The values before do not matter. -/
def applyAdvertisedSettings (_ : WtConfig) (settings : Settings) : WtConfig :=
  peerDefault.overlaySettings settings

end WtConfig

/-- `STREAM_ID_RECORD_MAX_SIZE`. -/
def streamIdRecordMaxSize : Nat := 10000

/-- The part of a `WtSession` that its protocol is about. The last five fields record what has
happened, most recent first: the capsules emitted, the capsules accepted while the session was
open, the events enqueued, the streams that `open_stream` opened and the streams removed. The
source has no such fields and nothing reads them. -/
structure Book where
  role : Role
  config : WtConfig
  peerConfig : WtConfig
  streams : AList fun _ : Nat => WtStream
  closedStreamSendMax : BoundedMap Nat Nat
  stopSendingReceivedIds : BoundedSet Nat
  flowControl : WtFlowControl
  nextBidiStreamId : Nat
  nextUniStreamId : Nat
  sent : List Capsule
  received : List Capsule
  notified : List WtEvent
  openedIds : List Nat
  removedIds : List Nat

/-- `WtSession`. The capsule encoder is empty between two operations. -/
structure WtSession extends Book where
  state : WtSessionState
  capsuleDecoder : CapsuleDecoder
  outputBuffer : Bytes
  events : List WtEvent

namespace Book

def new (role : Role) (config peerConfig : WtConfig) : Book where
  role := role
  config := config
  peerConfig := peerConfig
  streams := ∅
  closedStreamSendMax := BoundedMap.new streamIdRecordMaxSize
  stopSendingReceivedIds := BoundedSet.new streamIdRecordMaxSize
  flowControl := WtFlowControl.new peerConfig.initialMaxData.toNat config.initialMaxData.toNat
    config.initialMaxStreamsBidi.toNat peerConfig.initialMaxStreamsBidi.toNat
    config.initialMaxStreamsUni.toNat peerConfig.initialMaxStreamsUni.toNat
  nextBidiStreamId := StreamId.first (role == .client) true
  nextUniStreamId := StreamId.first (role == .client) false
  sent := []
  received := []
  notified := []
  openedIds := []
  removedIds := []

/-! ## Whose streams -/

def isPeerInitiated (b : Book) (streamId : Nat) : Bool :=
  match b.role with
  | .client => StreamId.isServerInitiated streamId
  | .server => StreamId.isClientInitiated streamId

def isReceiveOnlyId (b : Book) (streamId : Nat) : Bool :=
  b.isPeerInitiated streamId && StreamId.isUnidirectional streamId

def isUncreatedLocalId (b : Book) (streamId : Nat) : Bool :=
  if b.isPeerInitiated streamId then false
  else if StreamId.isBidirectional streamId then decide (b.nextBidiStreamId ≤ streamId)
  else decide (b.nextUniStreamId ≤ streamId)

def stream? (b : Book) (streamId : Nat) : Option WtStream := b.streams.lookup streamId

/-- `closed_stream_send_max.contains`. -/
def isClosedId (b : Book) (streamId : Nat) : Bool := b.closedStreamSendMax.contains streamId

def stopSendingReceived (b : Book) (streamId : Nat) : Bool :=
  b.stopSendingReceivedIds.contains streamId || (b.stream? streamId).any (·.stopSendingReceived)

/-- `initial_send_max_for_peer_stream`. -/
def initialSendMaxForPeerStream (b : Book) (bidirectional : Bool) : Nat :=
  if bidirectional then b.peerConfig.initialMaxStreamDataBidiLocal.toNat
  else b.peerConfig.initialMaxStreamDataUni.toNat

def willCreateImplicitPeerBidiStream (b : Book) (streamId : Nat) : Bool :=
  b.isPeerInitiated streamId && StreamId.isBidirectional streamId &&
    (b.stream? streamId).isNone && !b.isClosedId streamId

/-! ## Updates -/

def putStream (b : Book) (streamId : Nat) (s : WtStream) : Book :=
  { b with streams := b.streams.insert streamId s }

def setFlow (b : Book) (fc : WtFlowControl) : Book := { b with flowControl := fc }

def logSent (b : Book) (c : Capsule) : Book := { b with sent := c :: b.sent }

def logReceived (b : Book) (c : Capsule) : Book := { b with received := c :: b.received }

def logEvent (b : Book) (e : WtEvent) : Book := { b with notified := e :: b.notified }

/-- `remove_if_closed`. -/
def removeIfClosed (b : Book) (streamId : Nat) : Book :=
  match b.stream? streamId with
  | none => b
  | some s =>
    if s.isClosed then
      { b with
        streams := b.streams.erase streamId
        closedStreamSendMax := b.closedStreamSendMax.insert streamId s.sendMax
        removedIds := streamId :: b.removedIds }
    else b

end Book

namespace WtSession

/-- `WtSession::new`. -/
def new (role : Role) (config peerConfig : WtConfig) : WtSession where
  toBook := Book.new role config peerConfig
  state := .initial
  capsuleDecoder := CapsuleDecoder.new
  outputBuffer := []
  events := []

def client (config peerConfig : WtConfig) : WtSession := new .client config peerConfig

def server (config peerConfig : WtConfig) : WtSession := new .server config peerConfig

abbrev Wt (α : Type) : Type := Prog WtSession WtError α

def update (f : Book → Book) : Wt Unit := modify fun s => { s with toBook := f s.toBook }

/-- Encodes a capsule into the output buffer. -/
def emit (c : Capsule) : Wt Unit := modify fun s => { s with
  toBook := s.toBook.logSent c
  outputBuffer := s.outputBuffer ++ c.encode }

/-- `events.push_back`. -/
def notify (e : WtEvent) : Wt Unit := modify fun s => { s with
  toBook := s.toBook.logEvent e
  events := s.events ++ [e] }

def setState (state : WtSessionState) : Wt Unit := modify fun s => { s with state := state }

/-- The guard of the operations that an active or draining session allows. -/
def requireOpen (reason : String) : Wt Unit := do
  let s ← get
  require (s.state = .active ∨ s.state = .draining) (.sessionStateError reason)

def findStream (streamId : Nat) : Wt WtStream := do
  let s ← get
  match s.stream? streamId with
  | some stream => pure stream
  | none => throw (.invalidStreamId "stream not found")

/-! ## Calls -/

def initiate : Wt Unit := do
  let s ← get
  require (s.state = .initial) (.sessionStateError "session already initiated")
  setState .active

def openStream (bidirectional : Bool) : Wt Nat := do
  requireOpen "cannot open stream: session not active or draining"
  let s ← get
  if bidirectional then
    require (s.flowControl.canOpenBidiStream = true) (.flowControlError "bidi stream limit reached")
  else
    require (s.flowControl.canOpenUniStream = true) (.flowControlError "uni stream limit reached")
  let streamId := if bidirectional then s.nextBidiStreamId else s.nextUniStreamId
  update fun b =>
    if bidirectional then { b with nextBidiStreamId := StreamId.next streamId }
    else { b with nextUniStreamId := StreamId.next streamId }
  let sendMax :=
    if bidirectional then s.peerConfig.initialMaxStreamDataBidiRemote.toNat
    else s.peerConfig.initialMaxStreamDataUni.toNat
  let recvMax :=
    if bidirectional then s.config.initialMaxStreamDataBidiLocal.toNat
    else s.config.initialMaxStreamDataUni.toNat
  update (·.putStream streamId (WtStream.new streamId sendMax recvMax bidirectional true))
  update fun b => { b with openedIds := streamId :: b.openedIds }
  update fun b => b.setFlow (b.flowControl.openedStream bidirectional)
  return streamId

def openBidiStream : Wt Nat := openStream true

def openUniStream : Wt Nat := openStream false

def sendStreamData (streamId : Nat) (data : Bytes) (fin : Bool) : Wt Unit := do
  requireOpen "cannot send data: session not active or draining"
  let stream ← findStream streamId
  require (stream.canSend = true) (.streamStateError "cannot send on this stream")
  require (stream.hasSendPart = true) (.streamStateError "cannot send on a receive-only stream")
  let s ← get
  require (data.length ≤ s.flowControl.sendAvailable) (.flowControlError "send window exhausted")
  let stream ← lift (stream.sendData data.length fin)
  update (·.putStream streamId stream)
  let fc ← lift (s.flowControl.consumeSend data.length)
  update (·.setFlow fc)
  emit (.wtStream streamId data fin)
  if fin then update (·.removeIfClosed streamId) else pure ()

def resetStream (streamId errorCode : Nat) : Wt Unit := do
  require (errorCode ≤ maxApplicationErrorCode)
    ⟨.flowControlError, .errorCodeTooLarge "WT_RESET_STREAM" errorCode⟩
  let stream ← findStream streamId
  require (stream.canSend = true)
    (.streamStateError "cannot send WT_RESET_STREAM: stream not in valid send state")
  require (stream.hasSendPart = true)
    (.streamStateError "cannot send WT_RESET_STREAM on a receive-only stream")
  emit (.wtResetStream streamId errorCode stream.sendOffset)
  update (·.putStream streamId stream.sendReset)
  update (·.removeIfClosed streamId)

def stopSending (streamId errorCode : Nat) : Wt Unit := do
  require (errorCode ≤ maxApplicationErrorCode)
    ⟨.flowControlError, .errorCodeTooLarge "WT_STOP_SENDING" errorCode⟩
  let stream ← findStream streamId
  require (stream.hasRecvPart = true)
    (.streamStateError "cannot send WT_STOP_SENDING on a send-only stream")
  require (stream.stopSendingSent = false)
    (.streamStateError "cannot send WT_STOP_SENDING: already sent")
  require (stream.recvState ≠ .resetRead)
    (.streamStateError "cannot send WT_STOP_SENDING on a reset stream")
  emit (.wtStopSending streamId errorCode)
  update (·.putStream streamId stream.setStopSendingSent)

def sendDatagram (data : Bytes) : Wt Unit := do
  requireOpen "cannot send datagram: session not active or draining"
  emit (.datagram data)

/-- The loop of `close` that steps back to the start of a character. -/
def charBoundary (bytes : Bytes) : Nat → Nat
  | 0 => 0
  | n + 1 =>
    if bytes.getD (n + 1) 0 &&& 0xc0 = 0x80 then charBoundary bytes n
    else n + 1

/-- The reason that `close` sends. A slice that ends inside a character would stop the program. -/
def closeReason (reason : String) : String :=
  let bytes := utf8 reason
  if bytes.length > maxCloseReasonLen then
    (fromUtf8 (bytes.take (charBoundary bytes maxCloseReasonLen))).getD ""
  else reason

def close (errorCode : UInt32) (reason : String) : Wt Unit := do
  let s ← get
  require (s.state ≠ .closed) (.sessionStateError "session already closed")
  emit (.wtCloseSession errorCode (closeReason reason))
  setState .closed

def sendMaxData (maximum : Nat) : Wt Unit := do
  let s ← get
  let fc ← lift (s.flowControl.updateRecvMax maximum)
  update (·.setFlow fc)
  emit (.wtMaxData maximum)

def sendMaxStreamData (streamId maximum : Nat) : Wt Unit := do
  require (maximum ≤ Varint.maxValue)
    ⟨.flowControlError, .limitTooLarge "WT_MAX_STREAM_DATA" maximum⟩
  let stream ← findStream streamId
  require (stream.hasRecvPart = true)
    (.streamStateError "cannot send WT_MAX_STREAM_DATA on a send-only stream")
  require (stream.stopSendingSent = false)
    (.streamStateError "cannot send WT_MAX_STREAM_DATA: WT_STOP_SENDING already sent")
  require (stream.recvState = .recv)
    (.streamStateError "cannot send WT_MAX_STREAM_DATA: stream is not in the Recv state")
  require (stream.recvMax < maximum)
    ⟨.flowControlError, .notIncreasing "WT_MAX_STREAM_DATA" maximum "advertised" stream.recvMax⟩
  let stream ← lift (stream.updateRecvMax maximum)
  update (·.putStream streamId stream)
  emit (.wtMaxStreamData streamId maximum)

def sendMaxStreams (maximum : Nat) (bidirectional : Bool) : Wt Unit := do
  requireOpen "cannot send WT_MAX_STREAMS: session is not active"
  let s ← get
  let fc ← lift (s.flowControl.updateMaxStreamsLocal maximum bidirectional)
  update (·.setFlow fc)
  emit (.wtMaxStreams maximum bidirectional)

/-- `checked_add`, where the sum does not fit. -/
def grownBy (capsule : String) (current increment : Nat) : WtResult Nat :=
  match checkedAdd current increment with
  | some maximum => .ok maximum
  | none => .error ⟨.flowControlError, .incrementOverflow capsule increment current⟩

def growRecvWindow (increment : Nat) : Wt Unit := do
  let s ← get
  let maximum ← lift (grownBy "WT_MAX_DATA" s.flowControl.recvMax increment)
  sendMaxData maximum

def growStreamRecvWindow (streamId increment : Nat) : Wt Unit := do
  let stream ← findStream streamId
  let maximum ← lift (grownBy "WT_MAX_STREAM_DATA" stream.recvMax increment)
  sendMaxStreamData streamId maximum

def growMaxStreams (increment : Nat) (bidirectional : Bool) : Wt Unit := do
  let s ← get
  let maximum ←
    lift (grownBy "WT_MAX_STREAMS" (s.flowControl.maxStreamsLocal bidirectional) increment)
  sendMaxStreams maximum bidirectional

def drain : Wt Unit := do
  let s ← get
  require (s.state = .active) (.sessionStateError "cannot drain: session not active")
  emit .wtDrainSession
  setState .draining

end WtSession

end Http2.WebTransport
