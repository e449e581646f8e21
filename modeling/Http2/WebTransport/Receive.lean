import Http2.WebTransport.Session

/-! What a WebTransport session does with what it is fed, and what an application takes from it
(`src/webtransport.rs`). -/
namespace Http2.WebTransport

open Lib Lib.Prog

namespace WtSession

/-! ## Streams of the peer -/

/-- `create_peer_stream`. -/
def createPeerStream (streamId : Nat) (bidirectional : Bool) : Wt Unit := do
  let s ← get
  let sendMax := s.initialSendMaxForPeerStream bidirectional
  let recvMax :=
    if bidirectional then s.config.initialMaxStreamDataBidiRemote.toNat
    else s.config.initialMaxStreamDataUni.toNat
  update (·.putStream streamId (WtStream.new streamId sendMax recvMax bidirectional false))
  notify (.streamOpened streamId bidirectional)

/-- The loop of `create_peer_streams_up_to`, for that many identifiers from `id` on. -/
def createMissing (bidirectional : Bool) : Nat → Nat → Wt Unit
  | 0, _ => pure ()
  | count + 1, id => do
    let s ← get
    if (s.stream? id).isNone ∧ s.isClosedId id = false then createPeerStream id bidirectional
    else pure ()
    createMissing bidirectional count (StreamId.next id)

/-- `create_peer_streams_up_to`. There are `streamId / 4 + 1` identifiers of the type of `streamId`
up to it. -/
def createPeerStreamsUpTo (streamId : Nat) (bidirectional : Bool) : Wt Unit := do
  let s ← get
  require (s.flowControl.canAcceptStream streamId = true)
    (.flowControlError "peer exceeded stream limit")
  createMissing bidirectional (streamId / 4 + 1) (streamId &&& 0x03)

def createImplicitPeerBidiStream (streamId : Nat) : Wt Unit := do
  let s ← get
  if s.willCreateImplicitPeerBidiStream streamId then createPeerStreamsUpTo streamId true
  else pure ()

/-! ## Capsules -/

/-- What `handle_stream_data` asks before it touches a stream that exists or must be created. -/
def admitStreamData (streamId : Nat) (data : Bytes) (fin : Bool) : Wt Unit := do
  let s ← get
  require (s.isClosedId streamId = false) ⟨.streamStateError, .closedStream streamId⟩
  let isNewStream := (s.stream? streamId).isNone
  let bidirectional := StreamId.isBidirectional streamId
  require (¬ (data = [] ∧ isNewStream = false ∧ fin = false ∧
      (s.stream? streamId).any (·.hasReceivedData) = true))
    (.streamStateError "empty WT_STREAM capsule without FIN on existing stream")
  if isNewStream then do
    require (s.isPeerInitiated streamId = true)
      (.streamStateError "received stream with locally-initiated stream ID")
    createPeerStreamsUpTo streamId bidirectional
  else
    require (bidirectional = true ∨ s.isPeerInitiated streamId = true)
      (.streamStateError "WT_STREAM received for locally-initiated unidirectional stream")

/-- `handle_stream_data`. The stream exists once the data is admitted. -/
def handleStreamData (streamId : Nat) (data : Bytes) (fin : Bool) : Wt Unit := do
  admitStreamData streamId data fin
  let stream ← findStream streamId
  let stream ← lift (stream.recvData data.length fin)
  update (·.putStream streamId stream)
  if data ≠ [] then update (·.putStream streamId stream.setHasReceivedData) else pure ()
  let s ← get
  let fc ← lift (s.flowControl.consumeRecv data.length)
  update (·.setFlow fc)
  notify (.streamData streamId data fin)

/-- A stream that the peer may send on, or an error of its state. -/
def receivingStream (streamId : Nat) (unknown : WtReason) (invalid : String) : Wt WtStream := do
  let s ← get
  match s.stream? streamId with
  | none => throw ⟨.streamStateError, unknown⟩
  | some stream => do
    require (stream.canRecv = true ∧ stream.hasRecvPart = true) (.streamStateError invalid)
    return stream

def handleResetStream (streamId errorCode reliableSize : Nat) : Wt Unit := do
  let stream ← receivingStream streamId (.resetUnknownStream streamId)
    "WT_RESET_STREAM received for stream not in valid state"
  require (reliableSize = stream.recvOffset)
    ⟨.streamStateError, .reliableSizeMismatch reliableSize stream.recvOffset⟩
  update (·.putStream streamId stream.recvReset)
  notify (.streamReset streamId errorCode)
  update (·.removeIfClosed streamId)

/-- The checks that WT_STOP_SENDING and WT_MAX_STREAM_DATA share. -/
def requireSender (streamId : Nat) (receiveOnly uncreated stopped : String) : Wt Unit := do
  let s ← get
  require (s.isReceiveOnlyId streamId = false) (.streamStateError receiveOnly)
  require (s.isUncreatedLocalId streamId = false) (.streamStateError uncreated)
  require (s.stopSendingReceived streamId = false) (.streamStateError stopped)

/-- Records WT_STOP_SENDING, on the stream while there is one and by its identifier. -/
def recordStopSending (b : Book) (streamId : Nat) : Book :=
  let b := match b.stream? streamId with
    | some stream => b.putStream streamId stream.setStopSendingReceived
    | none => b
  { b with stopSendingReceivedIds := b.stopSendingReceivedIds.insert streamId }

def handleStopSending (streamId errorCode : Nat) : Wt Unit := do
  requireSender streamId "WT_STOP_SENDING received for receive-only stream"
    "WT_STOP_SENDING received for locally-initiated stream that has not been created"
    "duplicate WT_STOP_SENDING received"
  createImplicitPeerBidiStream streamId
  let s ← get
  let shouldReset := (s.stream? streamId).any (·.canSend)
  update (recordStopSending · streamId)
  if shouldReset then attempt (resetStream streamId errorCode) else pure ()
  notify (.stopSending streamId errorCode)

def handleMaxData (maximum : Nat) : Wt Unit := do
  let s ← get
  let fc ← lift (s.flowControl.updateSendMax maximum)
  update (·.setFlow fc)

def handleMaxStreamData (streamId maximum : Nat) : Wt Unit := do
  requireSender streamId "WT_MAX_STREAM_DATA received for receive-only stream"
    "WT_MAX_STREAM_DATA received for locally-initiated stream that has not been created"
    "WT_MAX_STREAM_DATA received after WT_STOP_SENDING"
  let s ← get
  if s.willCreateImplicitPeerBidiStream streamId then
    require (s.initialSendMaxForPeerStream true < maximum)
      ⟨.flowControlError, .notIncreasing "WT_MAX_STREAM_DATA" maximum "initial"
        (s.initialSendMaxForPeerStream true)⟩
  else pure ()
  match s.stream? streamId, s.closedStreamSendMax.get streamId with
  | none, some last => do
    require (last < maximum)
      ⟨.flowControlError, .notIncreasing "WT_MAX_STREAM_DATA" maximum "last received" last⟩
    update fun b => { b with closedStreamSendMax := b.closedStreamSendMax.insert streamId maximum }
  | _, _ => do
    createImplicitPeerBidiStream streamId
    let s ← get
    match s.stream? streamId with
    | some stream => do
      let stream ← lift (stream.updateSendMax maximum)
      update (·.putStream streamId stream)
    | none => pure ()

def handleMaxStreams (maximum : Nat) (bidirectional : Bool) : Wt Unit := do
  let s ← get
  let fc ← lift (s.flowControl.updateMaxStreams maximum bidirectional)
  update (·.setFlow fc)

def handleStreamDataBlocked (streamId : Nat) : Wt Unit := do
  let _ ← receivingStream streamId
    (.fixed "WT_STREAM_DATA_BLOCKED received for unknown stream")
    "WT_STREAM_DATA_BLOCKED received for stream not in valid state"
  pure ()

def handleDrainSession : Wt Unit := do
  let s ← get
  if s.state = .active then do
    setState .draining
    notify .sessionDraining
  else pure ()

/-- The `match` of `handle_capsule`. -/
def dispatch : Capsule → Wt Unit
  | .datagram data => notify (.datagramReceived data)
  | .wtStream streamId data fin => handleStreamData streamId data fin
  | .wtResetStream streamId errorCode reliableSize =>
    handleResetStream streamId errorCode reliableSize
  | .wtStopSending streamId errorCode => handleStopSending streamId errorCode
  | .wtMaxData maximum => handleMaxData maximum
  | .wtMaxStreamData streamId maximum => handleMaxStreamData streamId maximum
  | .wtMaxStreams maximum bidirectional => handleMaxStreams maximum bidirectional
  | .wtDataBlocked _ => pure ()
  | .wtStreamDataBlocked streamId _ => handleStreamDataBlocked streamId
  | .wtStreamsBlocked maximum _ =>
    require (maximum ≤ maxStreamsLimit) ⟨.flowControlError, .streamsBlockedTooLarge maximum⟩
  | .wtCloseSession errorCode reason => do
    setState .closed
    notify (.sessionClosed errorCode reason)
  | .wtDrainSession => handleDrainSession
  | .padding _ => pure ()
  | .unknown _ _ => pure ()

/-- `handle_capsule`: a closed session ignores what it gets. -/
def handleCapsule (c : Capsule) : Wt Unit := do
  let s ← get
  if s.state = .closed then pure ()
  else do
    dispatch c
    update (·.logReceived c)

/-! ## The calls that receive -/

def feed (data : Bytes) : Wt Nat := do
  let s ← get
  let decoder ← lift (s.capsuleDecoder.feed data)
  modify fun s => { s with capsuleDecoder := decoder }
  return data.length

/-- The loop of `process`, for at most that many capsules. -/
def processLoop : Nat → Wt Unit
  | 0 => pure ()
  | fuel + 1 => do
    let s ← get
    match ← lift s.capsuleDecoder.decode with
    | none => pure ()
    | some (capsule, decoder) => do
      modify fun s => { s with capsuleDecoder := decoder }
      handleCapsule capsule
      processLoop fuel

/-- `process`. A capsule takes an octet at least. -/
def process : Wt Unit := do
  let s ← get
  processLoop s.capsuleDecoder.buffer.length

def pollOutput : Wt (Option Bytes) := do
  let s ← get
  if s.outputBuffer = [] then return none
  modify fun s => { s with outputBuffer := [] }
  return some s.outputBuffer

/-- The application has read the end of a stream. -/
def finishReading (b : Book) (streamId : Nat) : Book :=
  (match b.stream? streamId with
    | some stream => b.putStream streamId stream.markDataRead
    | none => b).removeIfClosed streamId

def pollEvent : Wt (Option WtEvent) := do
  let s ← get
  match s.events with
  | [] => return none
  | event :: events => do
    modify fun s => { s with events := events }
    match event with
    | .streamData streamId _ true => update (finishReading · streamId)
    | _ => pure ()
    return some event

end WtSession

end Http2.WebTransport
