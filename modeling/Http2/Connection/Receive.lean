import Http2.Connection.Send

/-! The frame handlers of `src/connection.rs` and `src/connection/headers.rs`, and `process`. -/
namespace Http2.Connection

open Hpack Lib Lib.Prog

def checkNotIdleStream (sid : Nat) (frameType : String) : Conn Unit := do
  let c ← get
  require (c.isIdleStream sid = false)
    (.connectionError .protocolError s!"{frameType} on idle stream: {sid}")

/-! ## DATA and RST_STREAM -/

/-- DATA for a stream that is gone counts against the connection window and is reported. -/
def discardData (sid size : Nat) : Conn Unit :=
  if size > 0 then pushEvent (.dataDiscarded sid size) else pure ()

/-- The content length that received data may not exceed, and must meet at END_STREAM. -/
def contentLengthViolated (s : Stream) (endStream : Bool) : Bool :=
  match s.expectedContentLength with
  | some expected =>
    !s.noContent && (s.receivedContentLength > expected ||
      (endStream && s.receivedContentLength != expected))
  | none => false

/-- DATA for a live stream, already charged to the connection window. The record is written back
only where it survives: a reset removes it. -/
def receiveData (f : DataFrame) (s : Stream) : Conn Unit :=
  let sid := f.streamId
  let size := f.flowControlSize
  match s.state.recvData f.endStream with
  | .error _ => resetStreamInternal sid .streamClosed size
  | .ok state =>
    match s.flowControl.consumeRecv size with
    | .error _ => resetStreamInternal sid .flowControlError size
    | .ok fc =>
      if s.noContent && !f.data.isEmpty then resetStreamInternal sid .protocolError size
      else
        let s := { s with
          state := state
          flowControl := fc
          receivedContentLength := s.receivedContentLength + f.data.length }
        if contentLengthViolated s f.endStream then resetStreamInternal sid .protocolError size
        else do
          update (·.putStream sid s)
          pushEvent (.dataReceived sid f.data f.endStream)
          closeIf sid (f.endStream && state.isClosed)

def handleData (f : DataFrame) : Conn Unit := do
  checkNotIdleStream f.streamId "DATA"
  let c ← get
  let fc ← lift (c.flowControl.consumeRecv f.flowControlSize)
  update (·.setFlow fc)
  match c.stream? f.streamId with
  | none => discardData f.streamId f.flowControlSize
  | some s =>
    if s.state.isClosed then discardData f.streamId f.flowControlSize
    else receiveData f s

def handleRstStream (sid errorCode : Nat) : Conn Unit := do
  checkNotIdleStream sid "RST_STREAM"
  let c ← get
  match c.stream? sid with
  | none => pure ()
  | some _ => do
    pushEvent (.streamReset sid (.fromU32 errorCode) 0)
    update (·.dropStream sid)

/-! ## SETTINGS, PING, GOAWAY, WINDOW_UPDATE and PRIORITY_UPDATE -/

/-- One turn of the loop over the parameters. -/
def applySetting (setting : Setting) : Conn Unit := do
  let c ← get
  require (¬ (c.role = .client ∧ setting = .enablePush true))
    (.connectionError .protocolError "server sent ENABLE_PUSH=1 to client")
  match setting with
  | .noRfc7540Priorities value =>
    match c.initialNoRfc7540Priorities with
    | some initial => require (value = initial) (.connectionError .protocolError
        "NO_RFC7540_PRIORITIES cannot be changed after initial setting")
    | none => modify fun c => { c with initialNoRfc7540Priorities := some value }
  | .enableConnectProtocol value =>
    if value then modify fun c => { c with peerSentEnableConnectProtocol := true }
    else require (c.peerSentEnableConnectProtocol = false) (.connectionError .protocolError
      "SETTINGS_ENABLE_CONNECT_PROTOCOL cannot be set to 0 after sending 1")
  | _ => pure ()
  update fun c => { c with remoteSettings := c.remoteSettings.apply setting }

def applySettings : List Setting → Conn Unit
  | [] => pure ()
  | setting :: settings => do
    applySetting setting
    applySettings settings

/-- `update_stream_windows`, one record at a time: an overflow stops the loop. -/
def updateStreamWindows (newSize : Nat) : List Nat → Conn Unit
  | [] => pure ()
  | sid :: sids => do
    let c ← get
    match c.stream? sid with
    | none => updateStreamWindows newSize sids
    | some s => do
      let fc ← lift (s.flowControl.updateInitialWindowSize newSize)
      update (·.putStream sid { s with flowControl := fc })
      updateStreamWindows newSize sids

def handleSettingsAck : Conn Unit := do
  let c ← get
  require (c.pendingSettingsCount ≠ 0) (.connectionError .protocolError
    "received SETTINGS ACK without pending SETTINGS")
  modify fun c => { c with pendingSettingsCount := c.pendingSettingsCount - 1 }
  update fun c => c.setState (if c.state = .waitingPreface then .active else c.state)
  pushEvent (.settingsReceived true)

/-- The new table size, if it changed, is announced with the next header block. -/
def trackTableSize (oldSize newSize : UInt32) (pending : PendingUpdate) : PendingUpdate :=
  if newSize ≠ oldSize then trackSizeUpdate pending newSize.toNat else pending

/-- What follows the loop over the parameters; `old` holds the values before it. -/
def settleSettings (it : IterOrder) (old : Settings) : Conn Unit := do
  modify fun c => { c with
    initialNoRfc7540Priorities :=
      if c.state = .waitingPreface ∧ c.initialNoRfc7540Priorities = none then some false
      else c.initialNoRfc7540Priorities }
  update fun c => { c with
    pendingTableSizeUpdate :=
      trackTableSize old.headerTableSize c.remoteSettings.headerTableSize c.pendingTableSizeUpdate }
  let c ← get
  if c.remoteSettings.initialWindowSize ≠ old.initialWindowSize then
    updateStreamWindows c.remoteSettings.initialWindowSize (it.order c.trace.length c.streams.keys)
  else pure ()
  update fun c => { c with
    hpackEncoder := c.hpackEncoder.setMaxTableSize c.remoteSettings.headerTableSize.toNat }

def handleSettings (it : IterOrder) (f : SettingsFrame) : Conn Unit :=
  if f.ack then handleSettingsAck
  else do
    let c ← get
    applySettings f.settings
    settleSettings it c.remoteSettings
    sendFrame (.settings ⟨true, []⟩)
    flushAllStreamData it
    pushEvent (.settingsReceived false)
    let c ← get
    if c.state = .waitingPreface then do
      update (·.setState .active)
      pushEvent .connectionPreface
    else pure ()

def handlePing (ack : Bool) (opaqueData : Bytes) : Conn Unit := do
  if ack then pure () else sendFrame (.ping true opaqueData)
  pushEvent (.pingReceived opaqueData ack)

def handleGoaway (f : GoawayFrame) : Conn Unit := do
  update (·.setState .goawayReceived)
  pushEvent (.goawayReceived f.lastStreamId (.fromU32 f.errorCode) f.debugData)

/-- `handle_window_update` for a stream. -/
def handleStreamWindowUpdate (sid increment : Nat) : Conn Unit := do
  checkNotIdleStream sid "WINDOW_UPDATE"
  let c ← get
  match c.stream? sid with
  | none => pushEvent (.windowUpdateReceived sid increment)
  | some s =>
    if s.state.isClosed then pure ()
    else
      match s.flowControl.recvWindowUpdate increment with
      | .error _ => resetStream sid .flowControlError
      | .ok fc => do
        update (·.putStream sid { s with flowControl := fc })
        flushAndRemove sid
        pushEvent (.windowUpdateReceived sid increment)

def handleWindowUpdate (it : IterOrder) (sid increment : Nat) : Conn Unit :=
  if sid = 0 then do
    let c ← get
    let fc ← lift (c.flowControl.recvWindowUpdate increment)
    update (·.setFlow fc)
    flushAllStreamData it
    pushEvent (.windowUpdateReceived sid increment)
  else handleStreamWindowUpdate sid increment

def handlePriorityUpdate (prioritizedElementId : Nat) (priorityFieldValue : Bytes) : Conn Unit := do
  let c ← get
  require (c.role ≠ .client)
    (.connectionError .protocolError "client received PRIORITY_UPDATE frame")
  require (prioritizedElementId % 2 = 1)
    (.connectionError .protocolError "PRIORITY_UPDATE for non-client-initiated stream")
  pushEvent (.priorityUpdateReceived prioritizedElementId priorityFieldValue)

/-! ## HEADERS and CONTINUATION -/

def joinCookies : List Bytes → Bytes
  | [] => []
  | [v] => v
  | v :: vs => v ++ ascii "; " ++ joinCookies vs

/-- Several `cookie` fields become one, at the end. -/
def concatenateCookies (headers : List HeaderField) : List HeaderField :=
  let isCookie := fun h : HeaderField => eqIgnoreAsciiCase h.name (ascii "cookie")
  let cookies := headers.filter isCookie
  if cookies.length ≤ 1 then headers
  else
    let values := (cookies.map HeaderField.value).filter (!·.isEmpty)
    let others := headers.filter (!isCookie ·)
    if values.isEmpty then others
    else others ++ [⟨ascii "cookie", joinCookies values, cookies.any HeaderField.sensitive⟩]

/-- `extract_content_length`. Its caller drops the error, so a value that is not UTF-8 is not told
apart from one that is no number. -/
def extractContentLength : List HeaderField → Option Nat → Except Error (Option Nat)
  | [], found => .ok found
  | h :: headers, found =>
    if h.name = ascii "content-length" then
      match if h.value.isEmpty then none else parseDecimal 64 h.value 0 with
      | none => .error (.streamError .protocolError "invalid content-length value")
      | some len =>
        match found with
        | none => extractContentLength headers (some len)
        | some existing =>
          if existing = len then extractContentLength headers found
          else .error (.streamError .protocolError
            s!"conflicting content-length values: {existing} and {len}")
    else extractContentLength headers found

def resetHeadersValidationError (sid : Nat) : Conn Unit := do
  let _ ← ensureStream sid
  resetStreamInternal sid .protocolError 0

def resetRefusedConcurrentStream (sid : Nat) : Conn Unit := do
  let _ ← ensureStream sid
  resetStreamInternal sid .refusedStream 0
  update (·.noteSuccessful sid)

def resetConnectEstablishedHeaders (sid : Nat) : Conn Unit := resetStreamInternal sid .protocolError 0

/-- 204 and 304 have no content. -/
def noContentStatus (headers : List HeaderField) : Bool :=
  findValue headers ":status" == some (ascii "204") ||
    findValue headers ":status" == some (ascii "304")

def isHead (s : Stream) : Bool := s.requestMethod == some (ascii "HEAD")

/-- What a client notes about the response of a live stream. -/
def noteResponse (s : Stream) (headers : List HeaderField) : Stream :=
  { s with
    connectEstablished := s.connectEstablished || establishes s headers
    noContent := s.noContent || noContentStatus headers || isHead s }

/-- Trailers end the message. -/
def receiveTrailers (sid : Nat) (headers : List HeaderField) (endStream : Bool) : Conn Unit := do
  let s ← ensureStream sid
  match s.state.recvHeaders endStream with
  | .error _ => resetStreamInternal sid .streamClosed 0
  | .ok state => do
    update (·.putStream sid { s with state := state })
    pushEvent (.trailersReceived sid (concatenateCookies headers))
    closeIf sid (endStream && state.isClosed)

/-- A message without content may not announce any. -/
def lengthMismatch (role : Role) (s : Stream) (headers : List HeaderField) (endStream : Bool)
    (contentLength : Option Nat) : Bool :=
  endStream && contentLength.getD 0 != 0 &&
    !(role == .client && (noContentStatus headers || isHead s))

/-- The last part of `process_headers` for a header section that is not trailers. -/
def receiveHeaders (sid : Nat) (headers : List HeaderField) (endStream : Bool)
    (contentLength : Option Nat) : Conn Unit := do
  let s ← ensureStream sid
  let c ← get
  match s.state.recvHeaders endStream with
  | .error _ => resetStreamInternal sid .streamClosed 0
  | .ok state =>
    let headers := concatenateCookies headers
    let informational := c.role == .client && isInformational headers
    if !s.initialHeadersReceived && informational && endStream then
      resetStreamInternal sid .protocolError 0
    else if lengthMismatch c.role s headers endStream contentLength then
      resetStreamInternal sid .protocolError 0
    else do
      update (·.putStream sid { s with
        state := state
        expectedContentLength := contentLength
        initialHeadersReceived := s.initialHeadersReceived || !informational })
      pushEvent (.headersReceived sid headers endStream s.protocol)
      closeIf sid (endStream && state.isClosed)

/-- The content length, then the rest. -/
def receiveMessage (sid : Nat) (headers : List HeaderField) (endStream : Bool) : Conn Unit :=
  match extractContentLength headers none with
  | .error _ => resetHeadersValidationError sid
  | .ok contentLength => receiveHeaders sid headers endStream contentLength

/-- What a server notes of the request that it receives on a stream. -/
def noteRequest (s : Stream) (headers : List HeaderField) : Stream :=
  match findValue headers ":method" with
  | none => s
  | some method =>
    let protocol := findValue headers ":protocol"
    { s with
      requestMethod := some method
      hasProtocol := protocol.isSome
      protocol := protocol.or s.protocol }

def receiveRequest (sid : Nat) (headers : List HeaderField) (endStream : Bool) : Conn Unit := do
  let c ← get
  match validateRequestHeaders headers with
  | .error _ => resetHeadersValidationError sid
  | .ok _ =>
    let protocol := findValue headers ":protocol"
    if protocol.isSome && !c.localSettings.enableConnectProtocol then resetHeadersValidationError sid
    else
      match findValue headers ":method" with
      | none => receiveMessage sid headers endStream
      | some _ => do
        let s ← ensureStream sid
        update (·.putStream sid (noteRequest s headers))
        receiveMessage sid headers endStream

def receiveResponse (sid : Nat) (headers : List HeaderField) (endStream : Bool) : Conn Unit := do
  let c ← get
  match validateResponseHeaders headers with
  | .error _ => resetHeadersValidationError sid
  | .ok _ =>
    match c.stream? sid with
    | none => receiveMessage sid headers endStream
    | some s => do
      update (·.putStream sid (noteResponse s headers))
      receiveMessage sid headers endStream

/-- The message of this stream has begun. -/
def initialReceived (c : Core) (sid : Nat) : Bool :=
  match c.stream? sid with
  | some s => s.initialHeadersReceived
  | none => false

def processHeaders (sid : Nat) (headers : List HeaderField) (endStream : Bool) : Conn Unit := do
  let c ← get
  let hasPseudoHeader := headers.any fun h => isPseudo h.name
  let initialReceived := initialReceived c.toCore sid
  if !hasPseudoHeader && !initialReceived then resetHeadersValidationError sid
  else if hasPseudoHeader && initialReceived then resetHeadersValidationError sid
  else if !hasPseudoHeader then
    match validateTrailers headers with
    | .error _ => resetHeadersValidationError sid
    | .ok _ =>
      if !endStream then resetHeadersValidationError sid
      else receiveTrailers sid headers endStream
  else
    match c.role with
    | .server => receiveRequest sid headers endStream
    | .client => receiveResponse sid headers endStream

/-- A complete block goes through the HPACK decoder, whatever becomes of it. -/
def decodeBlock (sid : Nat) (fragment : Bytes) : Conn (List HeaderField) := do
  let c ← get
  let r := c.hpackDecoder.decode fragment
  update ({ · with hpackDecoder := r.2 })
  match r.1 with
  | .error e =>
    let reason := e.reasonText
    throw (.connectionError .compressionError s!"HPACK decode error: {reason}")
  | .ok headers => do
    update (·.log (.decoded sid headers))
    return headers

/-- What becomes of a decoded header block: `handle_headers` and `handle_continuation` end alike.
`ignored` holds when the stream was closed before. -/
def finishBlock (sid : Nat) (headers : List HeaderField) (endStream ignored : Bool) : Conn Unit := do
  let c ← get
  if ignored || c.isStreamClosed sid then
    modify fun c => { c with connectEstablishedHeadersReceived := false }
  else if c.headerConcurrentLimitExceeded then do
    modify fun c => { c with headerConcurrentLimitExceeded := false }
    resetRefusedConcurrentStream sid
  else if c.connectEstablishedHeadersReceived then do
    modify fun c => { c with connectEstablishedHeadersReceived := false }
    resetConnectEstablishedHeaders sid
  else do
    processHeaders sid headers endStream
    update (·.noteSuccessful sid)

/-- `MAX_HEADER_BLOCK_FRAGMENT_SIZE`. -/
def maxHeaderBlockFragmentSize : Nat := 64 * 1024 * 1024

def effectiveMaxFragment (settings : Settings) : Nat :=
  match settings.maxHeaderListSize with
  | some size => size.toNat
  | none => maxHeaderBlockFragmentSize

def checkHeaderBlockFragmentSize : Conn Unit := do
  let c ← get
  require (c.headerBlockFragment.length ≤ effectiveMaxFragment c.localSettings)
    (.connectionError .compressionError "accumulated header block fragment exceeds size limit")

/-- What `handle_headers` notes of a stream that was not closed before. -/
def noteHeaders (c : Connection) (sid : Nat) : Connection :=
  let established := match c.stream? sid with
    | some s => s.connectEstablished
    | none => false
  { c with
    connectEstablishedHeadersReceived := c.connectEstablishedHeadersReceived || established
    headerConcurrentLimitExceeded :=
      c.headerConcurrentLimitExceeded || c.concurrentLimitExceeded sid }

/-- The last part of `handle_headers`: the block is whole or to be continued. -/
def collectHeaders (f : HeadersFrame) (previouslyClosed : Bool) : Conn Unit := do
  let sid := f.streamId
  update fun c => { c with lastRecvStreamId := max c.lastRecvStreamId sid }
  if f.endHeaders then do
    let headers ← decodeBlock sid f.headerBlockFragment
    finishBlock sid headers f.endStream previouslyClosed
  else do
    update ({ · with
      headerContinuationStream := some sid
      headerBlockFragment := f.headerBlockFragment
      headerEndStream := f.endStream })
    checkHeaderBlockFragmentSize

def handleHeaders (f : HeadersFrame) : Conn Unit := do
  let sid := f.streamId
  require (sid % 2 = 1)
    (.connectionError .protocolError s!"server-initiated stream not supported: {sid}")
  let c ← get
  let last := c.lastRecvStreamId
  let previouslyClosed := c.closedStreams.contains sid
  require (¬ (c.state = .goawaySent ∧ last < sid ∧ c.stream? sid = none ∧ previouslyClosed = false))
    (.connectionError .protocolError "new stream after GOAWAY sent")
  if previouslyClosed then collectHeaders f true
  else do
    require (¬ (c.stream? sid = none ∧ sid ≤ last)) (.connectionError .protocolError
      s!"stream ID {sid} not greater than last received {last}")
    modify (noteHeaders · sid)
    collectHeaders f false

def handleContinuation (f : ContinuationFrame) : Conn Unit := do
  let c ← get
  match c.headerContinuationStream with
  | none => throw (.connectionError .protocolError
      "CONTINUATION frame received without preceding HEADERS")
  | some sid => do
    require (f.streamId = sid)
      (.connectionError .protocolError "CONTINUATION frame stream ID mismatch")
    let fragment := c.headerBlockFragment ++ f.headerBlockFragment
    update ({ · with headerBlockFragment := fragment })
    checkHeaderBlockFragmentSize
    if f.endHeaders then do
      update ({ · with headerContinuationStream := none })
      let headers ← decodeBlock sid fragment
      update ({ · with headerBlockFragment := [], headerEndStream := false })
      finishBlock sid headers c.headerEndStream (c.closedStreams.contains sid)
    else pure ()

/-! ## Frames and `process` -/

/-- A tunnel takes no frames of unknown types. -/
def handleUnknown (sid : Nat) : Conn Unit := do
  let c ← get
  match c.stream? sid with
  | some s =>
    if sid ≠ 0 ∧ s.connectEstablished = true then resetStreamInternal sid .protocolError 0
    else pure ()
  | none => pure ()

def dispatchFrame (it : IterOrder) : Frame → Conn Unit
  | .data f => handleData f
  | .headers f => handleHeaders f
  | .priority _ _ => pure ()
  | .rstStream sid errorCode => handleRstStream sid errorCode
  | .settings f => handleSettings it f
  | .pushPromise _ => throw (.connectionError .protocolError "PUSH_PROMISE not supported")
  | .ping ack opaqueData => handlePing ack opaqueData
  | .goaway f => handleGoaway f
  | .windowUpdate sid increment => handleWindowUpdate it sid increment
  | .continuation f => handleContinuation f
  | .priorityUpdate sid value => handlePriorityUpdate sid value
  | .unknown header _ => handleUnknown header.streamId

/-- The only frame that may come first. -/
def isInitialSettings : Frame → Bool
  | .settings f => !f.ack
  | _ => false

/-- The frame that a header block in progress admits. -/
def continues (expected : Option Nat) (f : Frame) : Bool :=
  match expected, f with
  | none, _ => true
  | some sid, .continuation cf => cf.streamId == sid
  | some _, _ => false

def handleFrame (it : IterOrder) (f : Frame) : Conn Unit := do
  update (·.log (.received f))
  let c ← get
  require (¬ (c.state = .waitingPreface ∧ c.role = .server ∧ c.prefaceReceived = false))
    (.connectionError .protocolError "client connection preface not received")
  require (c.state = .waitingPreface → isInitialSettings f = true)
    (.connectionError .protocolError "first frame must be SETTINGS")
  require (continues c.headerContinuationStream f = true)
    (.connectionError .protocolError "expected CONTINUATION frame")
  dispatchFrame it f

/-- `frame_decoder.decode()`. -/
def decodeNext : Conn (Except Error (Option Frame)) := do
  let c ← get
  modify fun c => { c with frameDecoder := c.frameDecoder.decode.2 }
  return c.frameDecoder.decode.1

/-- A stream error of the decoder resets its stream; on an idle stream it is a connection error. -/
def rejectFrame (e : Error) : Conn Unit := do
  let c ← get
  if e.isStreamError then
    match c.frameDecoder.lastDecodedStreamId, e.errorCode with
    | some sid, some code => do
      require (c.isIdleStream sid = false) (.connectionError code
        s!"stream error on idle stream {sid} promoted to connection error")
      update (·.log (.rejected sid))
      resetStream sid code
    | _, _ => pure ()
  else throw e

/-- The loop of `process`: every turn but the last takes octets off the decoder's buffer or uses
up the header it keeps. -/
def processLoop (it : IterOrder) : Nat → Conn Unit
  | 0 => pure ()
  | fuel + 1 => do
    let r ← decodeNext
    match r with
    | .ok none => pure ()
    | .ok (some f) => do
      handleFrame it f
      processLoop it fuel
    | .error e => do
      rejectFrame e
      processLoop it fuel

def process (it : IterOrder) : Conn Unit := do
  let c ← get
  processLoop it (c.frameDecoder.buf.length + 2)

end Http2.Connection
