import Http2.Event
import Http2.WebTransport.Receive

/-! The server driver of a WebTransport session (`crates/tokio-http2/src/webtransport.rs`): what it
does with the commands of the application, with the events of the HTTP/2 connection and with those
that the session reports. -/
namespace Http2.WebTransport

open Lib Lib.Prog

/-- `Error`, as far as the driver tells its causes apart. `connection` is a failure of a call on the
HTTP/2 connection. -/
inductive DriverError
  | webTransport (e : WtError)
  | connection
  | connectionClosed
  deriving DecidableEq, Repr

/-- What the driver asks of the HTTP/2 connection. -/
inductive ConnRequest
  | sendData (streamId : Nat) (data : Bytes) (endStream : Bool)
  | resetStream (streamId : Nat) (errorCode : ErrorCode)
  | sendWindowUpdate (streamId increment : Nat)
  deriving DecidableEq, Repr

/-- `StreamPacket`. -/
inductive StreamPacket
  | data (data : Bytes) (fin : Bool)
  | reset (errorCode : Nat)
  deriving DecidableEq, Repr

/-- What the driver hands to the application. -/
inductive Delivery
  | stream (streamId : Nat) (bidirectional : Bool)
  | packet (streamId : Nat) (packet : StreamPacket)
  | datagram (data : Bytes)
  deriving DecidableEq, Repr

/-- `DriverCmd`. The command that exports keying material asks the TLS connection and is left out. -/
inductive DriverCmd
  | sendStreamData (streamId : Nat) (data : Bytes) (fin : Bool)
  | openBidi
  | openUni
  | sendDatagram (data : Bytes)
  | resetStream (streamId errorCode : Nat)
  | stopSending (streamId errorCode : Nat)
  | close (errorCode : UInt32) (reason : String)
  | drain
  deriving DecidableEq, Repr

/-- What a command that succeeded returns. -/
inductive Ack
  | unit
  | streamId (id : Nat)
  deriving DecidableEq, Repr

/-- `DriverState`, with the keys of its map and of its set. The HTTP/2 connection is its answers:
`replies` says in turn whether a call on it succeeds and whether octets are left in its buffer. The
last three fields record what was asked of it, what the application got and which events were
dispatched, the most recent first; nothing reads them. -/
structure DriverState where
  connectStreamId : Nat
  wtSession : WtSession
  streamChannels : List Nat
  peerClosedBidiCount : Nat
  peerClosedUniCount : Nat
  respondedEndStreamOnClose : Bool
  stopSendingSentStreams : List Nat
  replies : List Bool
  requests : List ConnRequest
  delivered : List Delivery
  dispatched : List WtEvent

/-- The state that `accept` gives to the driver. The limits are those that the connection announced
in its SETTINGS. -/
def DriverState.accepted (connectStreamId : Nat) (localSettings : Settings)
    (config peerConfig : WtConfig) (replies : List Bool) : DriverState where
  connectStreamId := connectStreamId
  wtSession :=
    (WtSession.initiate
      (WtSession.server (config.applyAdvertisedSettings localSettings) peerConfig)).2
  streamChannels := []
  peerClosedBidiCount := 0
  peerClosedUniCount := 0
  respondedEndStreamOnClose := false
  stopSendingSentStreams := []
  replies := replies
  requests := []
  delivered := []
  dispatched := []

/-- `WT_SEND_CHUNK_SIZE`. -/
def wtSendChunkSize : Nat := defaultInitialWindowSize

/-- `wt_http2_error_code`. -/
def wtHttp2ErrorCode : WtErrorKind → Option ErrorCode
  | .streamStateError => some .wtStreamStateError
  | .flowControlError => some .wtFlowControlError
  | .sessionStateError => some .wtError
  | _ => none

/-- `div_ceil` by two. -/
def halfUp (n : Nat) : Nat := (n + 1) / 2

namespace WtStream

def recvAvailable (s : WtStream) : Nat := s.recvMax - s.recvOffset

end WtStream

namespace WtFlowControl

def recvAvailable (fc : WtFlowControl) : Nat := fc.recvMax - fc.recvOffset

def shouldSendMaxData (fc : WtFlowControl) (initialMaxData : Nat) : Bool :=
  decide (fc.recvAvailable < halfUp initialMaxData)

end WtFlowControl

namespace DriverState

abbrev Driver (ε α : Type) : Type := Prog DriverState ε α

/-! ## Parts -/

def onSession {α : Type} (m : WtSession.Wt α) : Driver WtError α := fun d =>
  ((m d.wtSession).1, { d with wtSession := (m d.wtSession).2 })

@[simp] theorem ensures_onSession {α : Type} {m : WtSession.Wt α} {d : DriverState}
    {Q : WtResult α → DriverState → Prop} : Ensures (onSession m) d Q ↔
      Ensures m d.wtSession fun r s => Q r { d with wtSession := s } := Iff.rfl

/-- The next answer of the HTTP/2 connection. -/
def reply {ε : Type} : Driver ε Bool := do
  let d ← get
  modify fun d => { d with replies := d.replies.tail }
  return d.replies.headD true

def request (r : ConnRequest) : Driver DriverError Unit := do
  modify fun d => { d with requests := r :: d.requests }
  let succeeded ← reply
  require (succeeded = true) .connection

def deliver {ε : Type} (x : Delivery) : Driver ε Unit :=
  modify fun d => { d with delivered := x :: d.delivered }

/-- Hands a packet to a stream whose channel is there. -/
def deliverPacket {ε : Type} (streamId : Nat) (packet : StreamPacket) : Driver ε Unit := do
  let d ← get
  if streamId ∈ d.streamChannels then deliver (.packet streamId packet) else pure ()

def insertChannel {ε : Type} (streamId : Nat) : Driver ε Unit :=
  modify fun d => { d with streamChannels := d.streamChannels.insert streamId }

def removeChannel {ε : Type} (streamId : Nat) : Driver ε Unit :=
  modify fun d => { d with streamChannels := d.streamChannels.filter (· ≠ streamId) }

def insertStopSendingSent {ε : Type} (streamId : Nat) : Driver ε Unit :=
  modify fun d => { d with stopSendingSentStreams := d.stopSendingSentStreams.insert streamId }

def removeStopSendingSent {ε : Type} (streamId : Nat) : Driver ε Unit :=
  modify fun d =>
    { d with stopSendingSentStreams := d.stopSendingSentStreams.filter (· ≠ streamId) }

/-- The field for streams of one direction. -/
def peerClosed (d : DriverState) (bidirectional : Bool) : Nat :=
  if bidirectional then d.peerClosedBidiCount else d.peerClosedUniCount

def setPeerClosed (d : DriverState) (bidirectional : Bool) (count : Nat) : DriverState :=
  if bidirectional then { d with peerClosedBidiCount := count }
  else { d with peerClosedUniCount := count }

/-- `abort_session_with_wt_error`. -/
def abortSessionWithWtError {α : Type} (e : WtError) : Driver DriverError α := do
  let d ← get
  match wtHttp2ErrorCode e.kind with
  | some code => attempt (request (.resetStream d.connectStreamId code))
  | none => pure ()
  throw (.webTransport e)

/-- An error of the session ends the driver. -/
def orAbort {α : Type} (m : Driver WtError α) : Driver DriverError α := do
  match ← capture m with
  | .ok a => return a
  | .error e => abortSessionWithWtError e

def sendChunks (streamId : Nat) : List Bytes → Driver DriverError Unit
  | [] => pure ()
  | chunk :: chunks => do
    request (.sendData streamId chunk false)
    sendChunks streamId chunks

/-- `flush_wt_output`. Nothing is put out meanwhile, so the loop of the source finds output once. -/
def flushWtOutput : Driver DriverError Unit := do
  let d ← get
  match ← capture (onSession WtSession.pollOutput) with
  | .ok (some out) => sendChunks d.connectStreamId (out.toChunks wtSendChunkSize)
  | _ => pure ()

/-! ## Flow control -/

/-- `maybe_grow_session_window`. -/
def maybeGrowSessionWindow : WtSession.Wt Unit := do
  let s ← get
  let initial := s.config.initialMaxData.toNat
  if s.flowControl.shouldSendMaxData initial then WtSession.growRecvWindow initial else pure ()

/-- The window that a stream starts with, from the side that opened it. -/
def initialWindow (s : WtSession) (streamId : Nat) (stream : WtStream) : Nat :=
  if stream.bidirectional then
    let locallyInitiated := match s.role with
      | .client => StreamId.isClientInitiated streamId
      | .server => StreamId.isServerInitiated streamId
    if locallyInitiated then s.config.initialMaxStreamDataBidiLocal.toNat
    else s.config.initialMaxStreamDataBidiRemote.toNat
  else s.config.initialMaxStreamDataUni.toNat

/-- `maybe_grow_stream_window`. -/
def maybeGrowStreamWindow (streamId : Nat) : WtSession.Wt Unit := do
  let s ← get
  match s.stream? streamId with
  | none => pure ()
  | some stream =>
    if stream.canRecv = false then pure ()
    else
      let initial := initialWindow s streamId stream
      if stream.recvAvailable < halfUp initial then WtSession.growStreamRecvWindow streamId initial
      else pure ()

/-- `maybe_grow_max_streams`. The counter is no more than the limit the session started with, so
its double fits. -/
def maybeGrowMaxStreams (bidirectional : Bool) : Driver WtError Unit := do
  let d ← get
  let initial := d.wtSession.config.initialMaxStreams bidirectional
  if initial = 0 then pure ()
  else
    let closed := d.peerClosed bidirectional
    if closed * 2 ≥ initial then do
      onSession (WtSession.growMaxStreams closed bidirectional)
      modify (·.setPeerClosed bidirectional 0)
    else pure ()

/-! ## Events of the session -/

/-- `account_peer_stream_closed`. -/
def accountPeerStreamClosed {ε : Type} (streamId : Nat) : Driver ε Unit :=
  if StreamId.isClientInitiated streamId then
    modify fun d => d.setPeerClosed (StreamId.isBidirectional streamId)
      (saturatingAdd (d.peerClosed (StreamId.isBidirectional streamId)) 1)
  else pure ()

def dispatchStreamData (streamId : Nat) (data : Bytes) (fin : Bool) : Driver DriverError Unit := do
  let d ← get
  if streamId ∈ d.stopSendingSentStreams then
    if fin then do
      removeChannel streamId
      accountPeerStreamClosed streamId
      removeStopSendingSent streamId
    else pure ()
  else do
    deliverPacket streamId (.data data fin)
    orAbort (onSession (maybeGrowStreamWindow streamId))
    if fin then do
      removeChannel streamId
      accountPeerStreamClosed streamId
    else pure ()

/-- `dispatch_wt_event`. -/
def dispatchWtEvent : WtEvent → Driver DriverError Unit
  | .streamOpened streamId bidirectional => do
    insertChannel streamId
    deliver (.stream streamId bidirectional)
  | .streamData streamId data fin => dispatchStreamData streamId data fin
  | .streamReset streamId errorCode => do
    deliverPacket streamId (.reset errorCode)
    removeChannel streamId
    accountPeerStreamClosed streamId
    removeStopSendingSent streamId
  | .stopSending _ _ => pure ()
  | .datagramReceived data => deliver (.datagram data)
  | .sessionDraining => pure ()
  | .sessionClosed _ _ => pure ()

/-- The loop over `poll_event`, for at most that many events. -/
def dispatchEvents : Nat → Driver DriverError Unit
  | 0 => pure ()
  | fuel + 1 => do
    match ← capture (onSession WtSession.pollEvent) with
    | .ok (some e) => do
      modify fun d => { d with dispatched := e :: d.dispatched }
      dispatchWtEvent e
      dispatchEvents fuel
    | _ => pure ()

/-! ## Commands and events of the connection -/

/-- `send_cmd_result`: whether the driver goes on, and the answer. -/
def sendCmdResult (res : WtResult Ack) : Driver DriverError (Bool × Except DriverError Ack) := do
  match res with
  | .error e => return (true, .error (.webTransport e))
  | .ok value =>
    match ← capture flushWtOutput with
    | .ok () => return (true, .ok value)
    | .error e => return (false, .error e)

/-- What `Close` does once the session is closed. -/
def finishClose : Driver DriverError Unit := do
  flushWtOutput
  let d ← get
  request (.sendData d.connectStreamId [] true)
  let pending ← reply
  require (pending = false) .connectionClosed
  modify fun d => { d with respondedEndStreamOnClose := true }

/-- `handle_cmd`. -/
def handleCmd : DriverCmd → Driver DriverError (Bool × Except DriverError Ack)
  | .sendStreamData streamId data fin => do
    let res ← capture (onSession (WtSession.sendStreamData streamId data fin))
    sendCmdResult (res.map fun _ => .unit)
  | .openBidi => do
    match ← capture (onSession WtSession.openBidiStream) with
    | .ok streamId => do
      insertChannel streamId
      sendCmdResult (.ok (.streamId streamId))
    | .error e => sendCmdResult (.error e)
  | .openUni => do
    let res ← capture (onSession WtSession.openUniStream)
    sendCmdResult (res.map .streamId)
  | .sendDatagram data => do
    let res ← capture (onSession (WtSession.sendDatagram data))
    sendCmdResult (res.map fun _ => .unit)
  | .resetStream streamId errorCode => do
    let res ← capture (onSession (WtSession.resetStream streamId errorCode))
    sendCmdResult (res.map fun _ => .unit)
  | .stopSending streamId errorCode => do
    let res ← capture (onSession (WtSession.stopSending streamId errorCode))
    let d ← get
    if res.isOk = true ∧ (d.wtSession.stream? streamId).any (·.canRecv) = true then
      insertStopSendingSent streamId
    else pure ()
    sendCmdResult (res.map fun _ => .unit)
  | .close errorCode reason => do
    match ← capture (onSession (WtSession.close errorCode reason)) with
    | .error e => return (false, .error (.webTransport e))
    | .ok () => do
      let res ← capture finishClose
      return (false, res.map fun _ => .unit)
  | .drain => do
    let res ← capture (onSession WtSession.drain)
    sendCmdResult (res.map fun _ => .unit)

/-- What DATA on the CONNECT stream brings in. -/
def receive (data : Bytes) : Driver DriverError Unit := do
  let _ ← orAbort (onSession (WtSession.feed data))
  orAbort (onSession WtSession.process)

/-- The answer to WT_CLOSE_SESSION. -/
def respondToClose : Driver DriverError Unit := do
  let d ← get
  if d.wtSession.state = .closed ∧ d.respondedEndStreamOnClose = false then do
    request (.sendData d.connectStreamId [] true)
    modify fun d => { d with respondedEndStreamOnClose := true }
    throw .connectionClosed
  else pure ()

def sendWindowUpdates (size : Nat) (endStream : Bool) : Driver DriverError Unit := do
  let d ← get
  if size > 0 then do
    request (.sendWindowUpdate 0 size)
    if endStream = false then request (.sendWindowUpdate d.connectStreamId size) else pure ()
  else pure ()

/-- `handle_event`. -/
def handleEvent : Event → Driver DriverError Unit
  | .dataReceived streamId data endStream => do
    let d ← get
    if streamId = d.connectStreamId then do
      receive data
      let d ← get
      dispatchEvents d.wtSession.events.length
      respondToClose
      orAbort (onSession maybeGrowSessionWindow)
      orAbort (maybeGrowMaxStreams true)
      orAbort (maybeGrowMaxStreams false)
      sendWindowUpdates data.length endStream
      flushWtOutput
      require (endStream = false) .connectionClosed
    else pure ()
  | .streamReset streamId _ _ => do
    let d ← get
    require (streamId ≠ d.connectStreamId) .connectionClosed
  | .streamClosed streamId => do
    let d ← get
    require (streamId ≠ d.connectStreamId) .connectionClosed
  | _ => pure ()

/-! ## Runs -/

/-- The states at the head of the loop of `run`. -/
inductive Run (start : DriverState) : DriverState → Prop
  | accepted : Run start start
  | cmd {d d' : DriverState} {res : Except DriverError Ack} (run : Run start d) (c : DriverCmd)
    (h : handleCmd c d = (.ok (true, res), d')) : Run start d'
  | event {d d' : DriverState} (run : Run start d) (e : Event)
    (h : handleEvent e d = (.ok (), d')) : Run start d'

/-- The states that a driver gets into: those after a command or an event, whether the driver goes
on or not, and those between the events that it dispatches. -/
inductive Reach (start : DriverState) : DriverState → Prop
  | cmd {d : DriverState} (run : Run start d) (c : DriverCmd) : Reach start (handleCmd c d).2
  | event {d : DriverState} (run : Run start d) (e : Event) : Reach start (handleEvent e d).2
  | dispatching {d : DriverState} (run : Run start d) (data : Bytes) (count : Nat) :
    Reach start ((do receive data; dispatchEvents count : Driver DriverError Unit) d).2
  | run {d : DriverState} (run : Run start d) : Reach start d

end DriverState

end Http2.WebTransport
