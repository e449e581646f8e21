import Http2.Connection.Run
import Http2.Lib.Maps

/-! The protocol that a connection runs, as transitions of its core. A transition is what one
received frame or one call does as a whole, so that every state between two transitions is one an
observer may see. It is labelled by what caused it. `Emit` sends queued data, `Wake` gives a stream
reason to send, `Start` and `Push` are one call's alone, `Calm` is all the rest. -/
namespace Http2

open Hpack Connection

namespace Core

@[simp] theorem stream?_eq (c : Core) (sid : Nat) : c.stream? sid = c.streams.lookup sid := rfl

@[simp] theorem putStream_putStream (c : Core) (sid : Nat) (s s' : Stream) :
    (c.putStream sid s).putStream sid s' = c.putStream sid s' := by
  simp [putStream]

@[simp] theorem putStream_setFlow (c : Core) (sid : Nat) (s : Stream) (fc : FlowControl) :
    (c.putStream sid s).setFlow fc = (c.setFlow fc).putStream sid s := rfl

@[simp] theorem putStream_dropStream (c : Core) (sid : Nat) (s : Stream) :
    (c.putStream sid s).dropStream sid = c.dropStream sid := by
  have herase : (c.streams.insert sid s).erase sid = c.streams.erase sid :=
    AList.ext (List.kerase_cons_eq rfl)
  simp [putStream, dropStream, herase]

/-! ## What transitions are made of -/

/-- A stream that is done reports it and goes. -/
def closeIf (c : Core) (sid : Nat) (closed : Bool) : Core :=
  if closed then (c.log (.event (.streamClosed sid))).dropStream sid else c

theorem closeIf_lookup (c : Core) (sid sid' : Nat) (closed : Bool) :
    (c.closeIf sid closed).streams.lookup sid' =
      if sid' = sid ∧ closed = true then none else c.streams.lookup sid' := by
  unfold closeIf
  cases closed <;> simp [lookup_erase_ite]

@[simp] theorem closeIf_flowControl (c : Core) (sid : Nat) (closed : Bool) :
    (c.closeIf sid closed).flowControl = c.flowControl := by
  unfold closeIf
  split <;> rfl

/-- RST_STREAM for a live stream. -/
def resetWith (c : Core) (sid : Nat) (code : ErrorCode) (consumed : Nat) : Core :=
  ((c.log (.sent (.rstStream sid code.asU32))).log
    (.event (.streamReset sid code consumed))).dropStream sid

theorem putStream_resetWith (c : Core) (sid : Nat) (s : Stream) (code : ErrorCode) (consumed : Nat) :
    (c.putStream sid s).resetWith sid code consumed = c.resetWith sid code consumed := by
  let d := (c.log (.sent (.rstStream sid code.asU32))).log (.event (.streamReset sid code consumed))
  exact putStream_dropStream d sid s

/-- DATA counts against the connection window, whatever becomes of it. -/
def chargeRecv (c : Core) (size : Nat) : Core := c.setFlow (c.flowControl.addRecv (-size))

def chargeSend (c : Core) (size : Nat) : Core := c.setFlow (c.flowControl.addSend (-size))

/-- A header block begins. -/
@[simps] def openBlock (c : Core) (f : HeadersFrame) : Core :=
  { c with
    lastRecvStreamId := max c.lastRecvStreamId f.streamId
    headerContinuationStream := some f.streamId
    headerBlockFragment := f.headerBlockFragment
    headerEndStream := f.endStream }

@[simps] def growBlock (c : Core) (fragment : Bytes) : Core :=
  { c with headerBlockFragment := c.headerBlockFragment ++ fragment }

/-- A header block of one frame went through the decoder. -/
@[simps] def decodeWhole (c : Core) (sid : Nat) (d : Decoder) : Core :=
  { c with lastRecvStreamId := max c.lastRecvStreamId sid, hpackDecoder := d }

/-- The last fragment came and the block went through the decoder. -/
@[simps] def decodeLast (c : Core) (d : Decoder) : Core :=
  { c with
    headerContinuationStream := none
    headerBlockFragment := []
    headerEndStream := false
    hpackDecoder := d }

/-- The peer's parameters take effect; `streams` holds the records with their windows moved. -/
@[simps] def applyRemote (c : Core) (settings : List Setting) (streams : AList fun _ : Nat => Stream) :
    Core :=
  let remote := settings.foldl Settings.apply c.remoteSettings
  { c with
    remoteSettings := remote
    streams := streams
    pendingTableSizeUpdate :=
      trackTableSize c.remoteSettings.headerTableSize remote.headerTableSize c.pendingTableSizeUpdate
    hpackEncoder := c.hpackEncoder.setMaxTableSize remote.headerTableSize.toNat }

/-- `streams` holds the records of `c` after SETTINGS_INITIAL_WINDOW_SIZE became `size`. -/
def Retuned (c : Core) (size : WindowSize) (streams : AList fun _ : Nat => Stream) : Prop :=
  size = c.remoteSettings.initialWindowSize ∧ streams = c.streams ∨
    size ≠ c.remoteSettings.initialWindowSize ∧
    ∀ sid, (c.streams.lookup sid = none ∧ streams.lookup sid = none) ∨
      ∃ s fc, c.streams.lookup sid = some s ∧ s.flowControl.updateInitialWindowSize size = .ok fc ∧
        streams.lookup sid = some { s with flowControl := fc }

def logSent (c : Core) : List Frame → Core
  | [] => c
  | f :: fs => (c.log (.sent f)).logSent fs

theorem logSent_eq (c : Core) (fs : List Frame) :
    c.logSent fs = { c with trace := (fs.map Item.sent).reverse ++ c.trace } := by
  induction fs generalizing c with
  | nil => rfl
  | cons f fs ih => simp [logSent, ih]

/-- A header list is encoded and its block leaves, after the table size updates that are due. -/
def sendBlock (c : Core) (sid : Nat) (headers : List HeaderField) (endStream : Bool) : Core :=
  let r := c.hpackEncoder.encode headers
  ({ c with hpackEncoder := r.1, pendingTableSizeUpdate := none }.log (.encoded sid headers)).logSent
    (blockFrames sid endStream c.remoteSettings.maxFrameSize
      (r.1.encodePending c.pendingTableSizeUpdate ++ r.2))

@[simp] theorem sendBlock_streams (c : Core) (sid : Nat) (headers : List HeaderField)
    (endStream : Bool) : (c.sendBlock sid headers endStream).streams = c.streams := by
  simp [sendBlock, logSent_eq]

@[simp] theorem sendBlock_closedStreams (c : Core) (sid : Nat) (headers : List HeaderField)
    (endStream : Bool) : (c.sendBlock sid headers endStream).closedStreams = c.closedStreams := by
  simp [sendBlock, logSent_eq]

@[simp] theorem sendBlock_headerContinuationStream (c : Core) (sid : Nat)
    (headers : List HeaderField) (endStream : Bool) :
    (c.sendBlock sid headers endStream).headerContinuationStream = c.headerContinuationStream := by
  simp [sendBlock, logSent_eq]

@[simp] theorem sendBlock_role (c : Core) (sid : Nat) (headers : List HeaderField)
    (endStream : Bool) : (c.sendBlock sid headers endStream).role = c.role := by
  simp [sendBlock, logSent_eq]

@[simp] theorem sendBlock_lastRecvStreamId (c : Core) (sid : Nat) (headers : List HeaderField)
    (endStream : Bool) :
    (c.sendBlock sid headers endStream).lastRecvStreamId = c.lastRecvStreamId := by
  simp [sendBlock, logSent_eq]

@[simp] theorem sendBlock_nextStreamId (c : Core) (sid : Nat) (headers : List HeaderField)
    (endStream : Bool) : (c.sendBlock sid headers endStream).nextStreamId = c.nextStreamId := by
  simp [sendBlock, logSent_eq]

/-- A received frame that changes nothing. -/
def Inert (c : Core) : Frame → Prop
  | .priority _ _ | .ping _ _ | .priorityUpdate _ _ | .unknown _ _ => True
  | .settings f => f.ack = true
  | .rstStream sid _ => c.stream? sid = none
  | .windowUpdate sid _ => sid ≠ 0 ∧ c.stream? sid = none
  | .data _ | .headers _ | .pushPromise _ | .continuation _ | .goaway _ => False

/-- What the message that a header section begins says about its stream. -/
def noted (c : Core) (sid : Nat) (s : Stream) (headers : List HeaderField) : Stream :=
  match c.role with
  | .server => noteRequest s headers
  | .client => if (c.stream? sid).isSome then noteResponse s headers else s

/-- The record that a header block finds or creates, and the core that holds it. -/
def Opens (c : Core) (sid : Nat) (s : Stream) (base : Core) : Prop :=
  c.stream? sid = some s ∧ base = c ∨
    c.stream? sid = none ∧ s = c.newStream sid ∧ base = c.openStream sid s

/-- A header block may begin for a closed stream, a live one, or one with a new id. -/
def Admits (c : Core) (sid : Nat) : Prop :=
  sid % 2 = 1 ∧ (c.closedStreams.contains sid = true ∨ (c.stream? sid).isSome = true ∨
    c.lastRecvStreamId < sid ∧ c.state ≠ .goawaySent)

end Core

/-- Events that are about no stream's life and leave the connection as it is. -/
def Event.isNotice : Event → Bool
  | .connectionPreface | .settingsReceived _ | .pingReceived _ _ | .windowUpdateReceived _ _
  | .priorityUpdateReceived _ _ => true
  | _ => false

/-- What the sender keeps when headers arrive or leave. -/
structure Stream.SameQueue (s s' : Stream) : Prop where
  flowControl : s'.flowControl = s.flowControl
  sendBuffer : s'.sendBuffer = s.sendBuffer
  pendingEndStream : s'.pendingEndStream = s.pendingEndStream

/-- What causes a transition: a frame, a frame that the decoder refused with a stream error, a call,
or the transition before it, which may let queued data go. -/
inductive Label
  | frame (f : Frame)
  | refusal (streamId : Nat)
  | api (k : Call)
  | inner
  | flush

/-- What becomes of a decoded header block. -/
inductive Outcome (sid : Nat) (raw : List HeaderField) (endStream : Bool) (c : Core) : Core → Prop
  | ignored (hclosed : c.closedStreams.contains sid = true) : Outcome sid raw endStream c c
  | reset {s : Stream} {base : Core} (code : ErrorCode) (hcode : code ≠ .flowControlError)
      (hclosed : c.closedStreams.contains sid = false) (hopens : c.Opens sid s base) :
      Outcome sid raw endStream c ((base.resetWith sid code 0).noteSuccessful sid)
  -- HEADERS on an established tunnel; its flag may outlive the record.
  | tunnel {s : Stream} (hclosed : c.closedStreams.contains sid = false)
      (hlive : c.stream? sid = some s) :
      Outcome sid raw endStream c (c.resetWith sid .protocolError 0)
  | gone (hclosed : c.closedStreams.contains sid = false) (hgone : c.stream? sid = none) :
      Outcome sid raw endStream c (c.log (.sent (.rstStream sid ErrorCode.protocolError.asU32)))
  | headers {s s' : Stream} {base : Core} (protocol : Option Bytes)
      (hclosed : c.closedStreams.contains sid = false) (hopens : c.Opens sid s base)
      (hinitial : s.initialHeadersReceived = false)
      (hstate : s.state.recvHeaders endStream = .ok s'.state)
      (hvalid : match c.role with
        | .server => validateRequestHeaders raw = .ok ()
        | .client => validateResponseHeaders raw = .ok ())
      (hlength : extractContentLength raw none = .ok s'.expectedContentLength)
      (hmatch : lengthMismatch c.role s' (concatenateCookies raw) endStream
        s'.expectedContentLength = false)
      (hend : endStream = true → s'.initialHeadersReceived = true)
      (hs : s' = { c.noted sid s raw with
        state := s'.state
        expectedContentLength := s'.expectedContentLength
        initialHeadersReceived :=
          !(c.role == .client && isInformational (concatenateCookies raw)) }) :
      Outcome sid raw endStream c ((((base.putStream sid s').log (.event (.headersReceived sid
        (concatenateCookies raw) endStream protocol))).closeIf sid s'.state.isClosed).noteSuccessful
          sid)
  | trailers {s : Stream} {state : StreamState}
      (hclosed : c.closedStreams.contains sid = false) (hlive : c.stream? sid = some s)
      (hinitial : s.initialHeadersReceived = true) (hend : endStream = true)
      (hvalid : validateTrailers raw = .ok ())
      (hstate : s.state.recvHeaders endStream = .ok state) :
      Outcome sid raw endStream c ((((c.putStream sid { s with state := state }).log
        (.event (.trailersReceived sid (concatenateCookies raw)))).closeIf sid
          state.isClosed).noteSuccessful sid)

inductive Calm (c : Core) : Label → Core → Prop
  | receive (f : Frame) (hinert : c.Inert f) : Calm c (.frame f) (c.log (.received f))
  | peerGoaway (f : GoawayFrame) :
      Calm c (.frame (.goaway f)) (((c.log (.received (.goaway f))).setState .goawayReceived).log
        (.event (.goawayReceived f.lastStreamId (.fromU32 f.errorCode) f.debugData)))
  -- What follows from a frame.
  | notify (e : Event) (he : e.isNotice = true) : Calm c .inner (c.log (.event e))
  | activate (hstate : c.state = .waitingPreface) : Calm c .inner (c.setState .active)
  | pong (opaqueData : Bytes) : Calm c .inner (c.log (.sent (.ping true opaqueData)))
  -- DATA for a stream that is gone, refused by a live one, accepted by it.
  | discardData (f : DataFrame) (hgone : c.stream? f.streamId = none)
      (hconn : (f.flowControlSize : Int) ≤ c.flowControl.recvWindow) (hsize : f.flowControlSize = 0) :
      Calm c (.frame (.data f)) ((c.log (.received (.data f))).chargeRecv f.flowControlSize)
  | reportData (f : DataFrame) (hgone : c.stream? f.streamId = none)
      (hconn : (f.flowControlSize : Int) ≤ c.flowControl.recvWindow) (hsize : 0 < f.flowControlSize) :
      Calm c (.frame (.data f)) (((c.log (.received (.data f))).chargeRecv f.flowControlSize).log
        (.event (.dataDiscarded f.streamId f.flowControlSize)))
  | refuseData {s : Stream} (f : DataFrame) (code : ErrorCode) (hlive : c.stream? f.streamId = some s)
      (hconn : (f.flowControlSize : Int) ≤ c.flowControl.recvWindow)
      (hcode : code = .flowControlError → s.flowControl.recvWindow < f.flowControlSize) :
      Calm c (.frame (.data f)) (((c.log (.received (.data f))).chargeRecv
        f.flowControlSize).resetWith f.streamId code f.flowControlSize)
  | deliverData {s s' : Stream} (f : DataFrame) (hlive : c.stream? f.streamId = some s)
      (hconn : (f.flowControlSize : Int) ≤ c.flowControl.recvWindow)
      (hstream : (f.flowControlSize : Int) ≤ s.flowControl.recvWindow)
      (hstate : s.state.recvData f.endStream = .ok s'.state)
      (hcontent : s.noContent = true → f.data = [])
      (hlength : contentLengthViolated s' f.endStream = false)
      (hs : s' = { s with
        state := s'.state
        flowControl := s.flowControl.addRecv (-f.flowControlSize)
        receivedContentLength := s.receivedContentLength + f.data.length }) :
      Calm c (.frame (.data f)) (((((c.log (.received (.data f))).chargeRecv
        f.flowControlSize).putStream f.streamId s').log (.event (.dataReceived f.streamId f.data
          f.endStream))).closeIf f.streamId s'.state.isClosed)
  -- Resets.
  | peerReset {s : Stream} (sid code : Nat) (hlive : c.stream? sid = some s) :
      Calm c (.frame (.rstStream sid code)) (((c.log (.received (.rstStream sid code))).log
        (.event (.streamReset sid (.fromU32 code) 0))).dropStream sid)
  | reset {s : Stream} (sid : Nat) (code : ErrorCode) (hlive : c.stream? sid = some s) :
      Calm c (.api (.resetStream sid code)) (c.resetWith sid code 0)
  | resetGone (sid : Nat) (code : ErrorCode) (hgone : c.stream? sid = none)
      (hidle : c.isIdleStream sid = false) :
      Calm c (.api (.resetStream sid code)) (c.log (.sent (.rstStream sid code.asU32)))
  | reject {s : Stream} (sid : Nat) (code : ErrorCode) (hcode : code ≠ .flowControlError)
      (hlive : c.stream? sid = some s) :
      Calm c (.refusal sid) ((c.log (.rejected sid)).resetWith sid code 0)
  | rejectGone (sid : Nat) (code : ErrorCode) (hgone : c.stream? sid = none)
      (hidle : c.isIdleStream sid = false) :
      Calm c (.refusal sid) ((c.log (.rejected sid)).log (.sent (.rstStream sid code.asU32)))
  | tunnel {s : Stream} (header : FrameHeader) (payload : Bytes) (hsid : header.streamId ≠ 0)
      (hlive : c.stream? header.streamId = some s) :
      Calm c (.frame (.unknown header payload)) ((c.log (.received (.unknown header
        payload))).resetWith header.streamId .protocolError 0)
  | overflow {s : Stream} {e : Error} (sid increment : Nat) (hsid : sid ≠ 0)
      (hlive : c.stream? sid = some s)
      (hover : s.flowControl.recvWindowUpdate increment = .error e) :
      Calm c (.frame (.windowUpdate sid increment)) ((c.log (.received (.windowUpdate sid
        increment))).resetWith sid .flowControlError 0)
  -- Header blocks of the peer.
  | beginBlock (f : HeadersFrame) (hcont : c.headerContinuationStream = none)
      (hadmits : c.Admits f.streamId) (hfirst : f.endHeaders = false) :
      Calm c (.frame (.headers f)) ((c.log (.received (.headers f))).openBlock f)
  | extendBlock (f : ContinuationFrame) (hcont : c.headerContinuationStream = some f.streamId)
      (hmore : f.endHeaders = false) :
      Calm c (.frame (.continuation f)) ((c.log (.received (.continuation f))).growBlock
        f.headerBlockFragment)
  | wholeBlock {c' : Core} (f : HeadersFrame) (headers : List HeaderField) (d : Decoder)
      (hcont : c.headerContinuationStream = none) (hadmits : c.Admits f.streamId)
      (hlast : f.endHeaders = true) (hdecode : c.hpackDecoder.decode f.headerBlockFragment = (.ok headers, d))
      (houtcome : Outcome f.streamId headers f.endStream (((c.log (.received (.headers f))).decodeWhole
        f.streamId d).log (.decoded f.streamId headers)) c') :
      Calm c (.frame (.headers f)) c'
  | endBlock {c' : Core} (f : ContinuationFrame) (headers : List HeaderField) (d : Decoder)
      (hcont : c.headerContinuationStream = some f.streamId) (hlast : f.endHeaders = true)
      (hdecode : c.hpackDecoder.decode (c.headerBlockFragment ++ f.headerBlockFragment) = (.ok headers, d))
      (houtcome : Outcome f.streamId headers c.headerEndStream (((c.log
        (.received (.continuation f))).decodeLast d).log (.decoded f.streamId headers)) c') :
      Calm c (.frame (.continuation f)) c'
  -- Frames about no stream that a call sends.
  | announce (k : Call) (hk : k = .initiate ∨ k = .sendSettings) :
      Calm c (.api k) (c.log (.sent (.settings ⟨false, settingsToSend c.role c.localSettings⟩)))
  | ping (opaqueData : Bytes) :
      Calm c (.api (.sendPing opaqueData)) (c.log (.sent (.ping false opaqueData)))
  | goaway (errorCode : ErrorCode) (debugData : Bytes) :
      Calm c (.api (.sendGoaway errorCode debugData)) { c.log (.sent (.goaway ⟨c.goawayStreamId,
        errorCode.asU32, debugData⟩)) with
          lastSentGoawayStreamId := some c.goawayStreamId
          state := .goawaySent }
  -- Credit given to the peer; the first of it follows the first SETTINGS.
  | credit (l : Label) (increment : Nat) (hl : l = .inner ∨ l = .api (.sendWindowUpdate 0 increment))
      (hpos : 0 < increment) (hmax : c.flowControl.recvWindow + increment ≤ maxWindowSize) :
      Calm c l ((c.setFlow (c.flowControl.addRecv increment)).log
        (.sent (.windowUpdate 0 increment)))
  | creditStream {s : Stream} (sid increment : Nat) (hsid : sid ≠ 0) (hlive : c.stream? sid = some s)
      (hpos : 0 < increment) (hmax : s.flowControl.recvWindow + increment ≤ maxWindowSize) :
      Calm c (.api (.sendWindowUpdate sid increment)) ((c.putStream sid { s with
        flowControl := s.flowControl.addRecv increment }).log (.sent (.windowUpdate sid increment)))
  | creditGone (sid increment : Nat) (hsid : sid ≠ 0) (hgone : c.stream? sid = none)
      (hpos : 0 < increment) (hmax : increment ≤ maxWindowSize) :
      Calm c (.api (.sendWindowUpdate sid increment)) (c.log (.sent (.windowUpdate sid increment)))
  -- Header blocks of our own.
  | respond {s s' : Stream} (sid : Nat) (headers : List HeaderField) (endStream : Bool)
      (hlive : c.stream? sid = some s) (htunnel : s.connectEstablished = false)
      (hvalid : validateResponseHeaders headers = .ok ())
      (hstate : s.state.sendHeaders endStream = .ok s'.state)
      (hempty : endStream = true → s.sendBuffer = [])
      (hfinal : isInformational headers = true ∧ endStream = false ∨
        isInformational headers = false ∧ s.finalResponseSent = false)
      (hs : s' = { responseStream headers s with state := s'.state })
      (hsize : c.remoteSettings.maxHeaderListSize.all
        (calculateHeaderListSize headers ≤ ·.toNat) = true) :
      Calm c (.api (.sendResponse sid headers endStream)) (((c.putStream sid s').sendBlock sid headers
        endStream).closeIf sid s'.state.isClosed)
  | trail {s : Stream} {state : StreamState} (sid : Nat) (headers : List HeaderField)
      (hlive : c.stream? sid = some s) (htunnel : s.connectEstablished = false)
      (hvalid : validateTrailers headers = .ok ()) (hstate : s.state.sendHeaders true = .ok state)
      (hempty : s.sendBuffer = []) (hfinal : c.role = .client ∨ s.finalResponseSent = true) :
      Calm c (.api (.sendTrailers sid headers)) (((c.putStream sid { s with
        state := state }).sendBlock sid headers true).closeIf sid state.isClosed)

/-- A frame that lets the streams of the set send. -/
inductive Wake (c : Core) : Frame → (Nat → Prop) → Core → Prop
  | update (increment : Nat) (hmax : c.flowControl.sendWindow + increment ≤ maxWindowSize) :
      Wake c (.windowUpdate 0 increment) (fun _ => True)
        ((c.log (.received (.windowUpdate 0 increment))).setFlow (c.flowControl.addSend increment))
  | updateStream {s : Stream} (sid increment : Nat) (hsid : sid ≠ 0) (hlive : c.stream? sid = some s)
      (hmax : s.flowControl.sendWindow + increment ≤ maxWindowSize) :
      Wake c (.windowUpdate sid increment) (· = sid)
        ((c.log (.received (.windowUpdate sid increment))).putStream sid { s with
          flowControl := s.flowControl.addSend increment })
  | settings (f : SettingsFrame) (streams : AList fun _ : Nat => Stream) (hack : f.ack = false)
      (hstreams : c.Retuned (f.settings.foldl Settings.apply c.remoteSettings).initialWindowSize
        streams) :
      Wake c (.settings f) (fun _ => True)
        (((c.log (.received (.settings f))).applyRemote f.settings streams).log
          (.sent (.settings ⟨true, []⟩)))

inductive Emit (c : Core) : Core → Prop
  | chunk {s : Stream} (sid : Nat) (data rest : Bytes) (hlive : c.stream? sid = some s)
      (hbuffer : s.sendBuffer = data ++ rest) (hdata : data ≠ [])
      (hconn : (data.length : Int) ≤ c.flowControl.sendWindow)
      (hstream : (data.length : Int) ≤ s.flowControl.sendWindow)
      (hframe : data.length ≤ c.remoteSettings.maxFrameSize)
      (hmore : s.pendingEndStream = true → rest ≠ []) :
      Emit c (((c.chargeSend data.length).putStream sid { s with
        sendBuffer := rest
        flowControl := s.flowControl.addSend (-data.length) }).log
          (.sent (.data ⟨sid, false, data, none⟩)))
  | last {s : Stream} {state : StreamState} (sid : Nat) (hlive : c.stream? sid = some s)
      (hdata : s.sendBuffer ≠ []) (hpending : s.pendingEndStream = true)
      (hconn : (s.sendBuffer.length : Int) ≤ c.flowControl.sendWindow)
      (hstream : (s.sendBuffer.length : Int) ≤ s.flowControl.sendWindow)
      (hframe : s.sendBuffer.length ≤ c.remoteSettings.maxFrameSize)
      (hstate : s.state.completeSendData = .ok state) :
      Emit c ((((c.chargeSend s.sendBuffer.length).putStream sid { s with
        sendBuffer := []
        pendingEndStream := false
        state := state
        flowControl := s.flowControl.addSend (-s.sendBuffer.length) }).log
          (.sent (.data ⟨sid, true, s.sendBuffer, none⟩))).closeIf sid state.isClosed)

/-- A request: `start_stream` took the next id. -/
inductive Start (c : Core) (headers : List HeaderField) (endStream : Bool) : Core → Prop
  | request (s : Stream) (hrole : c.role = .client)
      (hgoaway : c.state ≠ .goawayReceived) (hmax : c.nextStreamId ≤ streamIdMax)
      (hvalid : validateRequestHeaders headers = .ok ())
      (hstate : s.state = if endStream then .halfClosedLocal else .open)
      (hs : s = requestStream { c.newStream c.nextStreamId with state := s.state } headers) :
      Start c headers endStream (({ c with
        nextStreamId := c.nextStreamId + 2 }.openStream c.nextStreamId s).sendBlock c.nextStreamId
          headers endStream)

theorem start_checked {c d : Core} {headers : List HeaderField} {endStream : Bool}
    (h : Start c headers endStream d) :
    c.role = .client ∧ c.state ≠ .goawayReceived ∧ c.nextStreamId ≤ streamIdMax := by
  cases h with
  | request _ hrole hgoaway hmax => exact ⟨hrole, hgoaway, hmax⟩

/-- `send_data` accepted octets, or nothing but an END_STREAM, which leaves at once. -/
inductive Push (c : Core) (sid : Nat) : Bytes → Bool → Core → Prop
  | queue {s : Stream} (data : Bytes) (endStream : Bool) (hlive : c.stream? sid = some s)
      (hpending : s.pendingEndStream = false) (hcan : s.state.canSend = true)
      (hsome : endStream = true → s.sendBuffer ++ data ≠ [])
      (hroom : s.sendBuffer.canPush data.length = true) :
      Push c sid data endStream ((c.log (.queued sid data)).putStream sid { s with
        sendBuffer := s.sendBuffer ++ data
        pendingEndStream := endStream })
  | emptyEnd {s : Stream} {state : StreamState} (hlive : c.stream? sid = some s)
      (hpending : s.pendingEndStream = false) (hempty : s.sendBuffer = [])
      (hstate : s.state.completeSendData = .ok state) :
      Push c sid [] true ((((c.log (.queued sid [])).putStream sid { s with state := state }).log
        (.sent (.data ⟨sid, true, [], none⟩))).closeIf sid state.isClosed)

end Http2
