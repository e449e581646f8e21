import Mathlib.Data.List.AList
import Http2.BoundedSet
import Http2.Event
import Http2.Frame.Decoder
import Http2.Hpack.Session
import Http2.Lib.Prog
import Http2.Stream
import Http2.Validation

/-! The state of a connection (`src/connection.rs`) and the operations on it that the API calls
and the frame handlers share. -/
namespace Http2

open Hpack Lib Lib.Prog

inductive Role
  | client | server
  deriving DecidableEq, Repr

inductive ConnectionState
  | waitingPreface | active | goawaySent | goawayReceived | closed
  deriving DecidableEq, Repr

/-- `CLOSED_STREAMS_MAX_SIZE`. -/
def closedStreamsMaxSize : Nat := 10000

/-- `STREAM_ID_MAX`. -/
def streamIdMax : Nat := 2147483647

/-- What an observer of the connection can record. `rejected` is a frame that the decoder refused
with a stream error, `opened` the creation of a `Stream` record, `queued` an accepted push to a
send buffer, `encoded` and `decoded` the header list of a block. -/
inductive Item
  | received (f : Frame)
  | rejected (streamId : Nat)
  | sent (f : Frame)
  | event (e : Event)
  | opened (streamId : Nat)
  | queued (streamId : Nat) (data : Bytes)
  | encoded (streamId : Nat) (headers : List HeaderField)
  | decoded (streamId : Nat) (headers : List HeaderField)
  deriving DecidableEq, Repr

/-- The part of a `Connection` that the protocol is about. -/
structure Core where
  role : Role
  state : ConnectionState
  localSettings : Settings
  remoteSettings : Settings
  flowControl : FlowControl
  streams : AList fun _ : Nat => Stream
  closedStreams : BoundedSet Nat
  nextStreamId : Nat
  lastRecvStreamId : Nat
  lastSuccessfulStreamId : Nat
  lastSentGoawayStreamId : Option Nat
  hpackEncoder : Encoder
  hpackDecoder : Decoder
  headerContinuationStream : Option Nat
  headerBlockFragment : Bytes
  headerEndStream : Bool
  pendingTableSizeUpdate : Hpack.PendingUpdate
  /-- What has happened, most recent first. The source has no such field and nothing reads it. -/
  trace : List Item

/-- `Connection`: the core, its buffers, and the fields that only guard single calls. -/
structure Connection extends Core where
  frameDecoder : FrameDecoder
  outputBuffer : Bytes
  events : List Event
  pendingSettingsCount : Nat
  prefaceReceived : Bool
  prefaceSent : Bool
  headerConcurrentLimitExceeded : Bool
  connectEstablishedHeadersReceived : Bool
  initialNoRfc7540Priorities : Option Bool
  peerSentEnableConnectProtocol : Bool
  prefaceBuffer : Bytes
  connectionWindowSize : Nat
  connectionWindowUpdateSent : Bool

def Core.new (role : Role) (limits : Limits) : Core where
  role := role
  state := .waitingPreface
  localSettings := Settings.fromLimits limits
  remoteSettings := Settings.new
  flowControl := FlowControl.new defaultInitialWindowSize
  streams := ∅
  closedStreams := BoundedSet.new closedStreamsMaxSize
  nextStreamId := if role = .client then 1 else 2
  lastRecvStreamId := 0
  lastSuccessfulStreamId := 0
  lastSentGoawayStreamId := none
  hpackEncoder := Encoder.new limits.headerTableSize.toNat
  hpackDecoder := (Decoder.new limits.headerTableSize.toNat).setMaxHeaderListSize
    (limits.maxHeaderListSize.map UInt32.toNat)
  headerContinuationStream := none
  headerBlockFragment := []
  headerEndStream := false
  pendingTableSizeUpdate := none
  trace := []

/-- `Connection::new`. -/
def Connection.new (role : Role) (limits : Limits) : Connection where
  toCore := Core.new role limits
  frameDecoder := FrameDecoder.new limits.maxFrameSize
  outputBuffer := []
  events := []
  pendingSettingsCount := 0
  prefaceReceived := false
  prefaceSent := false
  headerConcurrentLimitExceeded := false
  connectEstablishedHeadersReceived := false
  initialNoRfc7540Priorities := none
  peerSentEnableConnectProtocol := false
  prefaceBuffer := []
  connectionWindowSize := limits.connectionWindowSize
  connectionWindowUpdateSent := false

namespace Core

@[simps] def log (c : Core) (i : Item) : Core := { c with trace := i :: c.trace }

/-- The record of a live stream. -/
abbrev stream? (c : Core) (sid : Nat) : Option Stream := c.streams.lookup sid

@[simps] def putStream (c : Core) (sid : Nat) (s : Stream) : Core :=
  { c with streams := c.streams.insert sid s }

/-- The record leaves the map and its id joins the closed ones. -/
@[simps] def dropStream (c : Core) (sid : Nat) : Core :=
  { c with closedStreams := c.closedStreams.insert sid, streams := c.streams.erase sid }

@[simps] def setFlow (c : Core) (fc : FlowControl) : Core := { c with flowControl := fc }

@[simps] def setState (c : Core) (state : ConnectionState) : Core := { c with state := state }

/-- A GOAWAY reports the largest id on which something was done. -/
@[simps] def noteSuccessful (c : Core) (sid : Nat) : Core :=
  { c with lastSuccessfulStreamId := max c.lastSuccessfulStreamId sid }

/-- The id that the next GOAWAY carries: it never grows from one to the next. -/
def goawayStreamId (c : Core) : Nat :=
  match c.lastSentGoawayStreamId with
  | some previous => min c.lastSuccessfulStreamId previous
  | none => c.lastSuccessfulStreamId

/-- A fresh record: the send window is the peer's initial size, the receive window ours. -/
def newStream (c : Core) (sid : Nat) : Stream :=
  Stream.new sid c.remoteSettings.initialWindowSize c.localSettings.initialWindowSize

def openStream (c : Core) (sid : Nat) (s : Stream) : Core := (c.log (.opened sid)).putStream sid s

def isIdleStream (c : Core) (sid : Nat) : Bool :=
  if (c.stream? sid).isSome then false
  else if c.closedStreams.contains sid then false
  else if sid % 2 = 0 then true
  else sid > c.lastRecvStreamId

def isStreamClosed (c : Core) (sid : Nat) : Bool :=
  match c.stream? sid with
  | some s => s.state.isClosed
  | none => false

/-- The number of streams that a concurrency limit counts. -/
def openCount (c : Core) : Nat := (c.streams.entries.filter fun e => !e.2.state.isClosed).length

/-- `check_concurrent_streams_limit`. -/
def concurrentLimitExceeded (c : Core) (sid : Nat) : Bool :=
  if (c.stream? sid).isSome then false
  else
    match c.localSettings.maxConcurrentStreams with
    | some max => c.openCount ≥ max.toNat
    | none => false

end Core

/-! ## Operations -/

/-- The methods of `Connection`. -/
abbrev Conn := Prog Connection Error

namespace Connection

def setCore (c : Connection) (core : Core) : Connection := { c with toCore := core }

def addEvent (c : Connection) (e : Event) : Connection :=
  { c with toCore := c.toCore.log (.event e), events := c.events ++ [e] }

def addOutput (c : Connection) (f : Frame) (bytes : Bytes) : Connection :=
  { c with toCore := c.toCore.log (.sent f), outputBuffer := c.outputBuffer ++ bytes }

def update (f : Core → Core) : Conn Unit := modify fun c => c.setCore (f c.toCore)

def pushEvent (e : Event) : Conn Unit := modify (·.addEvent e)

def sendFrame (f : Frame) : Conn Unit :=
  match f.encode with
  | .error e => throw e
  | .ok bytes => modify (·.addOutput f bytes)

/-- A stream that is done reports it and goes. -/
def closeStream (sid : Nat) : Conn Unit := do
  pushEvent (.streamClosed sid)
  update (·.dropStream sid)

/-- `reset_stream_internal`. The source first moves the record to `Closed`; it goes right after. -/
def resetStreamInternal (sid : Nat) (errorCode : ErrorCode) (connectionWindowConsumed : Nat) :
    Conn Unit := do
  require (sid ≠ 0) (.connectionError .protocolError "RST_STREAM requires non-zero stream ID")
  let c ← get
  require (c.isIdleStream sid = false)
    (.streamError .protocolError s!"RST_STREAM on idle stream: {sid}")
  sendFrame (.rstStream sid errorCode.asU32)
  if (c.stream? sid).isSome then do
    pushEvent (.streamReset sid errorCode connectionWindowConsumed)
    update (·.dropStream sid)
  else pure ()

def resetStream (sid : Nat) (errorCode : ErrorCode) : Conn Unit :=
  resetStreamInternal sid errorCode 0

/-- `entry(sid).or_insert_with(..)`. -/
def ensureStream (sid : Nat) : Conn Stream := do
  let c ← get
  match c.stream? sid with
  | some s => return s
  | none => do
    let s := c.newStream sid
    update (·.openStream sid s)
    return s

/-- `try_remove_closed_stream`. -/
def tryRemoveClosedStream (sid : Nat) : Conn Unit := do
  let c ← get
  match c.stream? sid with
  | some s =>
    if s.state.isClosed && s.sendBuffer.isEmpty && !s.pendingEndStream then closeStream sid
    else pure ()
  | none => pure ()

/-! ## Sending queued data -/

/-- How a turn of the loop of `flush_stream_data` ends: `return`, `break` or the next turn. -/
inductive Turn
  | done | leave | again
  deriving DecidableEq, Repr

/-- One turn of the loop of `flush_stream_data`. -/
def flushTurn (sid : Nat) : Conn Turn := do
  let c ← get
  match c.stream? sid with
  | none => return .done
  | some s =>
    if s.sendBuffer.isEmpty then return (if s.pendingEndStream then .leave else .done)
    else
      let available := min (min c.flowControl.sendAvailable s.flowControl.sendAvailable)
        c.remoteSettings.maxFrameSize
      if available = 0 then return .done
      else do
        let (data, rest) := s.sendBuffer.pop (min s.sendBuffer.length available)
        let s := { s with sendBuffer := rest }
        update (·.putStream sid s)
        let endStream := s.pendingEndStream && rest.isEmpty
        let fc ← lift (c.flowControl.consumeSend data.length)
        update (·.setFlow fc)
        let fc ← lift (s.flowControl.consumeSend data.length)
        let s := { s with flowControl := fc }
        update (·.putStream sid s)
        if endStream then do
          let state ← lift s.state.completeSendData
          update (·.putStream sid { s with pendingEndStream := false, state := state })
          sendFrame (.data ⟨sid, true, data, none⟩)
          return .leave
        else do
          sendFrame (.data ⟨sid, false, data, none⟩)
          return (if rest.isEmpty then .leave else .again)

/-- The loop of `flush_stream_data`; every turn but the last takes octets off the buffer, so the
fuel of `flushStreamData` is not exhausted. -/
def flushLoop (sid : Nat) : Nat → Conn Turn
  | 0 => return .done
  | fuel + 1 => do
    let turn ← flushTurn sid
    match turn with
    | .again => flushLoop sid fuel
    | turn => return turn

/-- What follows the loop: an END_STREAM that no octet is left to carry. -/
def flushEnd (sid : Nat) : Conn Unit := do
  let c ← get
  match c.stream? sid with
  | none => pure ()
  | some s =>
    if s.pendingEndStream && s.sendBuffer.isEmpty then do
      update (·.putStream sid { s with pendingEndStream := false })
      let state ← lift s.state.completeSendData
      update (·.putStream sid { s with pendingEndStream := false, state := state })
      sendFrame (.data ⟨sid, true, [], none⟩)
    else pure ()

def flushStreamData (sid : Nat) : Conn Unit := do
  let c ← get
  let turn ← flushLoop sid (((c.stream? sid).map (·.sendBuffer.length)).getD 0 + 1)
  match turn with
  | .leave => flushEnd sid
  | _ => pure ()

/-- The order in which a hash map yields its keys: any permutation, and another one each time. -/
structure IterOrder where
  order : Nat → List Nat → List Nat
  perm : ∀ n ids, (order n ids).Perm ids

/-- Flush one stream and let it go if that closed it. -/
def flushAndRemove (sid : Nat) : Conn Unit := do
  flushStreamData sid
  tryRemoveClosedStream sid

def flushEach : List Nat → Conn Unit
  | [] => pure ()
  | sid :: sids => do
    flushAndRemove sid
    flushEach sids

def flushAllStreamData (it : IterOrder) : Conn Unit := do
  let c ← get
  let waiting := fun sid => match c.stream? sid with
    | some s => !s.sendBuffer.isEmpty || s.pendingEndStream
    | none => false
  flushEach ((it.order c.trace.length c.streams.keys).filter waiting)

/-! ## Header blocks -/

/-- The fragments after the first, each as long as a frame may be. -/
def continuationFrames (sid maxFrameSize : Nat) : Nat → Bytes → List Frame
  | 0, _ => []
  | fuel + 1, remaining =>
    if remaining.isEmpty then []
    else
      .continuation ⟨sid, (remaining.drop maxFrameSize).isEmpty, remaining.take maxFrameSize⟩ ::
        continuationFrames sid maxFrameSize fuel (remaining.drop maxFrameSize)

/-- The frames of a header block, in the order in which `send_header_block` sends them. -/
def blockFrames (sid : Nat) (endStream : Bool) (maxFrameSize : Nat) (block : Bytes) : List Frame :=
  if block.length ≤ maxFrameSize then [.headers ⟨sid, endStream, true, none, block, none⟩]
  else
    .headers ⟨sid, endStream, false, none, block.take maxFrameSize, none⟩ ::
      continuationFrames sid maxFrameSize block.length (block.drop maxFrameSize)

def sendFrames : List Frame → Conn Unit
  | [] => pure ()
  | f :: fs => do
    sendFrame f
    sendFrames fs

def sendHeaderBlock (sid : Nat) (encodedHeaders : Bytes) (endStream : Bool) : Conn Unit := do
  let c ← get
  update ({ · with pendingTableSizeUpdate := none })
  let block := c.hpackEncoder.encodePending c.pendingTableSizeUpdate ++ encodedHeaders
  sendFrames (blockFrames sid endStream c.remoteSettings.maxFrameSize block)

/-- Encode a header list and send its block. -/
def encodeAndSend (sid : Nat) (headers : List HeaderField) (endStream : Bool) : Conn Unit := do
  let c ← get
  update fun c => { c.log (.encoded sid headers) with
    hpackEncoder := (c.hpackEncoder.encode headers).1 }
  sendHeaderBlock sid (c.hpackEncoder.encode headers).2 endStream

def calculateHeaderListSize (headers : List HeaderField) : Nat := (headers.map HeaderField.size).sum

/-- The first field of that name. -/
def findValue (headers : List HeaderField) (name : String) : Option Bytes :=
  (headers.find? fun h => h.name == ascii name).map HeaderField.value

end Connection

end Http2
