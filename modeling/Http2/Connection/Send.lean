import Http2.Connection.State

/-! What an application calls: the public methods of `src/connection.rs` and of the first part of
`src/connection/headers.rs`. -/
namespace Http2.Connection

open Hpack Lib Lib.Prog

/-- `CONNECTION_PREFACE`. -/
def connectionPreface : Bytes := ascii "PRI * HTTP/2.0\r\n\r\nSM\r\n\r\n"

/-- `CONNECTION_PREFACE_LEN`. -/
def connectionPrefaceLen : Nat := 24

/-! ## Connection level -/

/-- `send_window_update`. A stream that is not in the map gets its frame all the same. -/
def sendWindowUpdate (sid increment : Nat) : Conn Unit := do
  require (increment ≠ 0)
    (.connectionError .protocolError "WINDOW_UPDATE increment must be non-zero")
  require (increment ≤ maxWindowSize)
    (.connectionError .flowControlError "WINDOW_UPDATE increment exceeds maximum window size")
  let c ← get
  if sid = 0 then do
    let fc ← lift (c.flowControl.addRecvWindow increment)
    update (·.setFlow fc)
    sendFrame (.windowUpdate sid increment)
  else
    match c.stream? sid with
    | some s => do
      let fc ← lift (s.flowControl.addRecvWindow increment)
      update (·.putStream sid { s with flowControl := fc })
      sendFrame (.windowUpdate sid increment)
    | none => sendFrame (.windowUpdate sid increment)

/-- The parameters that a side announces: a server leaves ENABLE_PUSH out. -/
def settingsToSend (role : Role) (settings : Settings) : List Setting :=
  settings.toSettingsList.filter fun s =>
    match s with
    | .enablePush _ => role == .client
    | _ => true

def sendInitialConnectionWindowUpdate : Conn Unit := do
  let c ← get
  if c.connectionWindowUpdateSent then pure ()
  else do
    if c.connectionWindowSize > defaultInitialWindowSize then
      sendWindowUpdate 0 (c.connectionWindowSize - defaultInitialWindowSize)
    else pure ()
    modify fun c => { c with connectionWindowUpdateSent := true }

def sendSettings : Conn Unit := do
  let c ← get
  sendFrame (.settings ⟨false, settingsToSend c.role c.localSettings⟩)
  modify fun c => { c with pendingSettingsCount := c.pendingSettingsCount + 1 }
  sendInitialConnectionWindowUpdate

def initiate : Conn Unit := do
  let c ← get
  if c.prefaceSent then pure ()
  else do
    modify fun c => { c with
      outputBuffer := c.outputBuffer ++ (if c.role = .client then connectionPreface else []) }
    sendFrame (.settings ⟨false, settingsToSend c.role c.localSettings⟩)
    modify fun c => { c with
      pendingSettingsCount := c.pendingSettingsCount + 1
      prefaceSent := true }
    sendInitialConnectionWindowUpdate

/-- `feed`: a server takes the first 24 octets as the client's preface. -/
def feed (data : Bytes) : Conn Nat := do
  let c ← get
  if c.role = .server ∧ c.prefaceReceived = false then do
    let consume := min data.length (connectionPrefaceLen - c.prefaceBuffer.length)
    let buffer := c.prefaceBuffer ++ data.take consume
    modify fun c => { c with prefaceBuffer := buffer }
    require (buffer = connectionPreface.take buffer.length)
      (.connectionError .protocolError "invalid client connection preface")
    if buffer.length < connectionPrefaceLen then return data.length
    else do
      modify fun c => { c with
        prefaceReceived := true
        frameDecoder := c.frameDecoder.feed (data.drop consume) }
      return data.length
  else do
    modify fun c => { c with frameDecoder := c.frameDecoder.feed data }
    return data.length

def markPrefaceReceived : Conn Unit := modify fun c => { c with prefaceReceived := true }

def markPrefaceSent : Conn Unit := modify fun c => { c with prefaceSent := true }

def pollEvent : Conn (Option Event) := do
  let c ← get
  modify fun c => { c with events := c.events.tail }
  return c.events.head?

def pollOutput : Conn (Option Bytes) := do
  let c ← get
  modify fun c => { c with outputBuffer := [] }
  return (if c.outputBuffer.isEmpty then none else some c.outputBuffer)

def sendPing (opaqueData : Bytes) : Conn Unit := sendFrame (.ping false opaqueData)

def sendGoaway (errorCode : ErrorCode) (debugData : Bytes) : Conn Unit := do
  let c ← get
  let lastStreamId := c.goawayStreamId
  sendFrame (.goaway ⟨lastStreamId, errorCode.asU32, debugData⟩)
  update fun c => { c with lastSentGoawayStreamId := some lastStreamId, state := .goawaySent }

/-! ## Requests, responses and trailers -/

/-- The peer's bound on the size of a header list. -/
def checkPeerListSize (headers : List HeaderField) : Conn Unit := do
  let c ← get
  match c.remoteSettings.maxHeaderListSize with
  | none => pure ()
  | some maxSize =>
    let size := calculateHeaderListSize headers
    require (size ≤ maxSize.toNat) (.streamError .protocolError
      s!"header list size {size} exceeds peer's SETTINGS_MAX_HEADER_LIST_SIZE {maxSize}")

/-- What `start_stream` checks before it takes an id. -/
def checkStart (headers : List HeaderField) : Conn Unit := do
  lift (validateRequestHeaders headers)
  let c ← get
  require (c.role = .client)
    (.protocolError "server cannot initiate streams (server push not supported)")
  require (c.state ≠ .goawayReceived)
    (.connectionError .protocolError "cannot start new stream after GOAWAY received")
  require (c.remoteSettings.maxConcurrentStreams.all (c.openCount < ·.toNat) = true)
    (.streamError .refusedStream "max concurrent streams limit set by peer would be exceeded")
  let protocol := findValue headers ":protocol"
  require (protocol.isSome → c.remoteSettings.enableConnectProtocol = true)
    (.protocolError "cannot send :protocol without peer's SETTINGS_ENABLE_CONNECT_PROTOCOL=1")
  require (protocol = some (ascii "webtransport") → c.remoteSettings.wtEnabled = true)
    (.protocolError "cannot send :protocol=webtransport without peer's SETTINGS_WT_ENABLED=1")
  checkPeerListSize headers
  require (c.nextStreamId ≤ streamIdMax)
    (.streamError .refusedStream "stream ID space exhausted, establish a new connection")

/-- The record of a request that is about to be sent. -/
def requestStream (s : Stream) (headers : List HeaderField) : Stream :=
  match findValue headers ":method" with
  | none => s
  | some method =>
    let protocol := findValue headers ":protocol"
    { s with requestMethod := some method, hasProtocol := protocol.isSome, protocol := protocol }

def startStream (headers : List HeaderField) (endStream : Bool) : Conn Nat := do
  checkStart headers
  let c ← get
  let sid := c.nextStreamId
  update ({ · with nextStreamId := sid + 2 })
  let state ← lift ((c.newStream sid).state.sendHeaders endStream)
  update (·.openStream sid (requestStream { c.newStream sid with state := state } headers))
  encodeAndSend sid headers endStream
  return sid

/-- A stream on which a tunnel is up takes no HEADERS. -/
def checkNoTunnel (c : Core) (sid : Nat) : Conn Unit :=
  require (∀ s ∈ c.stream? sid, s.connectEstablished = false)
    (.streamError .protocolError "HEADERS not allowed on established CONNECT tunnel")

/-- `check_send_buffer_empty`. -/
def checkSendBufferEmpty (c : Core) (sid : Nat) : Conn Unit :=
  require (∀ s ∈ c.stream? sid, s.sendBuffer = [])
    (.streamError .streamClosed "cannot send END_STREAM: send buffer still has queued DATA")

/-- A status of three digits that starts with `digit`. -/
def statusClass (headers : List HeaderField) (digit : UInt8) : Bool :=
  match findValue headers ":status" with
  | some [d, _, _] => d == digit
  | _ => false

def isInformational (headers : List HeaderField) : Bool := statusClass headers 0x31

/-- A 2xx answer to a CONNECT without `:protocol` brings the tunnel up. -/
def establishes (s : Stream) (headers : List HeaderField) : Bool :=
  statusClass headers 0x32 && s.requestMethod == some (ascii "CONNECT") && !s.hasProtocol

/-- A live stream, for the calls that need one. -/
def liveStream (c : Core) (sid : Nat) : Conn Stream :=
  match c.stream? sid with
  | some s => return s
  | none => throw (.streamError .streamClosed "stream not found")

/-- What a response says about its stream. -/
def responseStream (headers : List HeaderField) (s : Stream) : Stream :=
  { s with
    finalResponseSent := s.finalResponseSent || !isInformational headers
    connectEstablished := s.connectEstablished || establishes s headers }

/-- Close the stream if END_STREAM was the last thing it waited for. -/
def closeIf (sid : Nat) (closed : Bool) : Conn Unit :=
  if closed then closeStream sid else pure ()

/-- The last part of `send_response` and `send_trailers`: the stream moves, notes what it sends, and
the block leaves. -/
def sendSection (sid : Nat) (headers : List HeaderField) (endStream : Bool)
    (note : Stream → Stream) : Conn Unit := do
  let c ← get
  let s ← liveStream c.toCore sid
  let state ← lift (s.state.sendHeaders endStream)
  update (·.putStream sid { note s with state := state })
  encodeAndSend sid headers endStream
  closeIf sid (endStream && state.isClosed)

def sendResponse (sid : Nat) (headers : List HeaderField) (endStream : Bool) : Conn Unit := do
  let c ← get
  checkNoTunnel c.toCore sid
  lift (validateResponseHeaders headers)
  require (¬ (endStream = true ∧ isInformational headers = true))
    (.streamError .protocolError "informational response (1xx) with END_STREAM is malformed")
  require (isInformational headers = true ∨ ∀ s ∈ c.stream? sid, s.finalResponseSent = false)
    (.streamError .protocolError "final response already sent on this stream")
  checkPeerListSize headers
  if endStream then checkSendBufferEmpty c.toCore sid else pure ()
  sendSection sid headers endStream (responseStream headers)

def sendTrailers (sid : Nat) (headers : List HeaderField) : Conn Unit := do
  let c ← get
  checkNoTunnel c.toCore sid
  require (c.role = .client ∨ ∀ s ∈ c.stream? sid, s.finalResponseSent = true)
    (.streamError .protocolError "cannot send trailers before final response")
  lift (validateTrailers headers)
  checkPeerListSize headers
  checkSendBufferEmpty c.toCore sid
  sendSection sid headers true id

/-! ## Data -/

def queueData (sid : Nat) (data : Bytes) (endStream : Bool) : Conn Unit := do
  let c ← get
  let s ← liveStream c.toCore sid
  require (s.sendBuffer.canPush data.length = true)
    (.streamError .flowControlError "send buffer full")
  update fun c => (c.log (.queued sid data)).putStream sid { s with
    sendBuffer := s.sendBuffer.push data
    pendingEndStream := s.pendingEndStream || endStream }

def sendData (sid : Nat) (data : Bytes) (endStream : Bool) : Conn Unit := do
  let c ← get
  let s ← liveStream c.toCore sid
  require (s.pendingEndStream = false) (.streamError .streamClosed
    "cannot send DATA after END_STREAM was queued for this stream")
  lift s.state.sendData
  queueData sid data endStream
  flushAndRemove sid

end Http2.Connection
