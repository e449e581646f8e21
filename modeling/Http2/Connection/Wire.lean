import Http2.Connection.Transfer
import Http2.Frame.Range

/-! The octets that leave are those of the frames that were sent, in order. -/
namespace Http2

open Hpack Lib Lib.Prog Connection
open Negotiation (prologue)

namespace Wire

/-- The frames that were sent, the first one first. -/
def sentFrames : List Item → List Frame
  | [] => []
  | .sent f :: earlier => sentFrames earlier ++ [f]
  | _ :: earlier => sentFrames earlier

/-- The frames that were received, the first one first. -/
def receivedFrames : List Item → List Frame
  | [] => []
  | .received f :: earlier => receivedFrames earlier ++ [f]
  | _ :: earlier => receivedFrames earlier

theorem receivedFrames_append (later earlier : List Item) :
    receivedFrames (later ++ earlier) = receivedFrames earlier ++ receivedFrames later := by
  induction later with
  | nil => exact (List.append_nil _).symm
  | cons i later ih => cases i <;> simp [receivedFrames, ih]

/-- The frames that went either way. -/
def crossed (items : List Item) : List Frame × List Frame := (sentFrames items, receivedFrames items)

/-- The codes of 32 bits. -/
@[grind] def isNarrow : ErrorCode → Bool
  | .unknown n => n < 2 ^ 32
  | _ => true

theorem narrow_code {code : ErrorCode} (h : isNarrow code = true) : code.asU32 < 2 ^ 32 := by
  cases code with
  | unknown n => simpa [isNarrow, ErrorCode.asU32] using h
  | _ => decide

/-- A PING carries eight octets, an increment is not zero and has 31 bits, and an error code has 32. -/
@[grind] def isWhole : Frame → Bool
  | .ping _ opaqueData => opaqueData.length == 8
  | .windowUpdate _ increment => 0 < increment ∧ increment < 2 ^ 31
  | .rstStream _ errorCode => errorCode < 2 ^ 32
  | .goaway f => f.errorCode < 2 ^ 32
  | _ => true

/-- What was taken out before and what is there now begin with `start`, and what follows are the
frames that were sent. -/
def octets (c : Connection) : Bytes → Bytes → Prop := fun start drained =>
  drained ++ c.outputBuffer = start ++ (sentFrames c.trace).flatMap Frame.wire ∧
    (∀ f ∈ sentFrames c.trace, isWhole f = true) ∧ c.prefaceSent = true

theorem octets_congr {c d : Connection} (houtput : d.outputBuffer = c.outputBuffer)
    (hframes : sentFrames d.trace = sentFrames c.trace) (hsent : d.prefaceSent = c.prefaceSent) :
    octets d = octets c := by
  funext start drained
  rw [octets, houtput, hframes, hsent]
  rfl

/-- What the channels to and from the peer see. -/
def wired (c : Connection) : (Bytes → Bytes → Prop) × List Frame := (octets c, receivedFrames c.trace)

section

variable (c : Core) (sid : Nat)

@[grind =] theorem putStream_crossed (s : Stream) : crossed (c.putStream sid s).trace = crossed c.trace := rfl

@[grind =] theorem dropStream_crossed : crossed (c.dropStream sid).trace = crossed c.trace := rfl

@[grind =] theorem setFlow_crossed (fc : FlowControl) : crossed (c.setFlow fc).trace = crossed c.trace := rfl

@[grind =] theorem setState_crossed (state : ConnectionState) :
    crossed (c.setState state).trace = crossed c.trace := rfl

@[grind =] theorem noteSuccessful_crossed : crossed (c.noteSuccessful sid).trace = crossed c.trace := rfl

@[grind =] theorem openStream_crossed (s : Stream) :
    crossed (c.openStream sid s).trace = crossed c.trace := rfl

@[grind =] theorem queued_crossed (data : Bytes) :
    crossed (c.log (.queued sid data)).trace = crossed c.trace := rfl

@[grind =] theorem decoded_crossed (headers : List HeaderField) :
    crossed (c.log (.decoded sid headers)).trace = crossed c.trace := rfl

@[grind =] theorem rejected_crossed : crossed (c.log (.rejected sid)).trace = crossed c.trace := rfl

end

/-! ## Operations -/

@[grind ←] theorem update_wired {g : Core → Core} (h : ∀ c, crossed (g c).trace = crossed c.trace) :
    Keeps wired (update g) := by
  intro c
  have hsent : sentFrames (g c.toCore).trace = sentFrames c.trace := congrArg Prod.fst (h c.toCore)
  have hreceived : receivedFrames (g c.toCore).trace = receivedFrames c.trace :=
    congrArg Prod.snd (h c.toCore)
  exact Prod.ext (octets_congr rfl hsent rfl) hreceived

@[grind ←] theorem modify_wired {g : Connection → Connection}
    (h : ∀ c, (g c).outputBuffer = c.outputBuffer ∧ (g c).trace = c.trace ∧
      (g c).prefaceSent = c.prefaceSent) :
    Keeps wired (modify g : Conn Unit) := by
  intro c
  obtain ⟨houtput, htrace, hsent⟩ := h c
  exact Prod.ext (octets_congr houtput (congrArg sentFrames htrace) hsent) (congrArg receivedFrames htrace)

@[grind ←] theorem pushEvent_wired (e : Event) : Keeps wired (pushEvent e) := fun _ => rfl

@[grind ←] theorem sendFrame_wired {f : Frame} (hf : isWhole f = true) : Keeps wired (sendFrame f) := by
  unfold sendFrame
  cases hencode : f.encode with
  | error e => exact keeps_throw
  | ok bytes =>
    intro c
    have hwire : f.wire = bytes := by rw [Frame.wire, hencode]
    apply Prod.ext
    · funext start drained
      change (drained ++ (c.outputBuffer ++ bytes) = start ++ (sentFrames c.trace ++ [f]).flatMap Frame.wire ∧
        (∀ g ∈ sentFrames c.trace ++ [f], isWhole g = true) ∧ c.prefaceSent = true) = octets c start drained
      simp [octets, hwire, hf, ← List.append_assoc, or_imp, forall_and]
    · rfl

@[grind ←] theorem closeStream_wired (sid : Nat) : Keeps wired (closeStream sid) := by
  unfold closeStream
  grind

@[grind ←] theorem closeIf_wired (sid : Nat) (closed : Bool) : Keeps wired (closeIf sid closed) := by
  unfold closeIf
  grind

@[grind ←] theorem resetStreamInternal_wired (sid : Nat) {errorCode : ErrorCode}
    (hcode : isNarrow errorCode = true)
    (consumed : Nat) : Keeps wired (resetStreamInternal sid errorCode consumed) := by
  have hwhole : isWhole (.rstStream sid errorCode.asU32) = true := by simpa [isWhole] using narrow_code hcode
  unfold resetStreamInternal
  grind

@[grind ←] theorem resetStream_wired (sid : Nat) {errorCode : ErrorCode} (hcode : isNarrow errorCode = true) :
    Keeps wired (resetStream sid errorCode) := resetStreamInternal_wired sid hcode 0

@[grind ←] theorem ensureStream_wired (sid : Nat) : Keeps wired (ensureStream sid) := by
  unfold ensureStream
  grind [Core.openStream]

@[grind ←] theorem tryRemoveClosedStream_wired (sid : Nat) :
    Keeps wired (tryRemoveClosedStream sid) := by
  unfold tryRemoveClosedStream
  grind

theorem flushTurn_wired (sid : Nat) : Keeps wired (flushTurn sid) := by
  refine keeps_bind keeps_get fun c => ?_
  cases c.stream? sid with
  | none => exact keeps_pure
  | some s =>
    refine keeps_ite keeps_pure (keeps_ite keeps_pure ?_)
    refine keeps_bind (update_wired fun _ => rfl) fun _ => keeps_bind keeps_lift fun fc => ?_
    refine keeps_bind (update_wired fun _ => rfl) fun _ => keeps_bind keeps_lift fun fc' => ?_
    grind

theorem flushLoop_wired (sid fuel : Nat) : Keeps wired (flushLoop sid fuel) := by
  induction fuel with
  | zero => exact keeps_pure
  | succ fuel ih =>
    refine keeps_bind (flushTurn_wired sid) fun turn => ?_
    split
    · exact ih
    · exact keeps_pure

theorem flushEnd_wired (sid : Nat) : Keeps wired (flushEnd sid) := by
  refine keeps_bind keeps_get fun c => ?_
  cases c.stream? sid with
  | none => exact keeps_pure
  | some s =>
    refine keeps_ite (keeps_bind (update_wired fun _ => rfl) fun _ => ?_) keeps_pure
    exact keeps_bind keeps_lift fun state => keeps_bind (update_wired fun _ => rfl) fun _ =>
      sendFrame_wired rfl

@[grind ←] theorem flushAndRemove_wired (sid : Nat) : Keeps wired (flushAndRemove sid) := by
  refine keeps_bind (keeps_bind keeps_get fun c => ?_) fun _ => tryRemoveClosedStream_wired sid
  refine keeps_bind (flushLoop_wired sid _) fun turn => ?_
  split
  · exact flushEnd_wired sid
  · exact keeps_pure

theorem flushEach_wired (sids : List Nat) : Keeps wired (flushEach sids) := by
  induction sids with
  | nil => exact keeps_pure
  | cons sid sids ih => exact keeps_bind (flushAndRemove_wired sid) fun _ => ih

@[grind ←] theorem flushAllStreamData_wired (it : IterOrder) : Keeps wired (flushAllStreamData it) :=
  keeps_bind keeps_get fun _ => flushEach_wired _

/-! ## Calls -/

theorem sendFrames_wired {fs : List Frame} (hfs : ∀ f ∈ fs, isWhole f = true) :
    Keeps wired (sendFrames fs) := by
  induction fs with
  | nil => exact keeps_pure
  | cons f fs ih =>
    obtain ⟨hf, hrest⟩ := List.forall_mem_cons.1 hfs
    exact keeps_bind (sendFrame_wired hf) fun _ => ih hrest

theorem blockFrames_whole {sid maxFrameSize : Nat} {endStream : Bool} {block : Bytes} :
    ∀ f ∈ blockFrames sid endStream maxFrameSize block, isWhole f = true := by
  obtain ⟨hf, _, _, fs, heq, hfs⟩ := blockFrames_cases sid maxFrameSize endStream block
  rw [heq]
  intro f hin
  obtain rfl | hin := List.mem_cons.1 hin
  · rfl
  · obtain ⟨cf, rfl, _⟩ := hfs f hin
    rfl

@[grind ←] theorem encodeAndSend_wired (sid : Nat) (headers : List HeaderField) (endStream : Bool) :
    Keeps wired (encodeAndSend sid headers endStream) := by
  refine keeps_bind keeps_get fun c => keeps_bind (update_wired fun _ => rfl) fun _ => ?_
  exact keeps_bind keeps_get fun c => keeps_bind (update_wired fun _ => rfl) fun _ =>
    sendFrames_wired blockFrames_whole

@[grind ←] theorem checkPeerListSize_wired (headers : List HeaderField) :
    Keeps wired (checkPeerListSize headers) := by
  unfold checkPeerListSize
  grind

@[grind ←] theorem liveStream_wired (c : Core) (sid : Nat) : Keeps wired (liveStream c sid) := by
  unfold liveStream
  grind

@[grind ←] theorem sendWindowUpdate_wired (sid increment : Nat) :
    Keeps wired (sendWindowUpdate sid increment) := by
  apply keeps_requireThen
  intro hpos
  apply keeps_requireThen
  intro hmax
  have hwhole : isWhole (.windowUpdate sid increment) = true := by
    simp only [maxWindowSize] at hmax
    simp only [isWhole, decide_eq_true_eq]
    omega
  refine keeps_bind keeps_get fun c => keeps_ite ?_ ?_
  · grind
  · cases c.stream? sid with
    | none => exact sendFrame_wired hwhole
    | some s => grind

@[grind ←] theorem sendInitialConnectionWindowUpdate_wired :
    Keeps wired sendInitialConnectionWindowUpdate := by
  unfold sendInitialConnectionWindowUpdate
  grind

theorem sendSettings_wired : Keeps wired sendSettings := by
  unfold sendSettings
  grind

theorem checkStart_wired (headers : List HeaderField) : Keeps wired (checkStart headers) := by
  refine keeps_bind keeps_lift fun _ => keeps_bind keeps_get fun c => ?_
  refine keeps_bind keeps_require fun _ => keeps_bind keeps_require fun _ => ?_
  grind

theorem startStream_wired (headers : List HeaderField) (endStream : Bool) :
    Keeps wired (startStream headers endStream) := by
  refine keeps_bind (checkStart_wired headers) fun _ => keeps_bind keeps_get fun c => ?_
  refine keeps_bind (update_wired fun _ => rfl) fun _ => keeps_bind keeps_lift fun state => ?_
  exact keeps_bind (update_wired fun _ => rfl) fun _ =>
    keeps_bind (encodeAndSend_wired _ headers endStream) fun _ => keeps_pure

@[grind ←] theorem sendSection_wired (sid : Nat) (headers : List HeaderField) (endStream : Bool)
    (note : Stream → Stream) : Keeps wired (sendSection sid headers endStream note) := by
  unfold sendSection
  grind

theorem sendResponse_wired (sid : Nat) (headers : List HeaderField) (endStream : Bool) :
    Keeps wired (sendResponse sid headers endStream) := by
  unfold sendResponse checkNoTunnel checkSendBufferEmpty
  grind

theorem sendTrailers_wired (sid : Nat) (headers : List HeaderField) :
    Keeps wired (sendTrailers sid headers) := by
  unfold sendTrailers checkNoTunnel checkSendBufferEmpty
  grind

@[grind ←] theorem queueData_wired (sid : Nat) (data : Bytes) (endStream : Bool) :
    Keeps wired (queueData sid data endStream) := by
  unfold queueData
  grind

theorem sendData_wired (sid : Nat) (data : Bytes) (endStream : Bool) :
    Keeps wired (sendData sid data endStream) := by
  unfold sendData
  grind

/-! ## Frames -/

@[grind ←] theorem checkNotIdleStream_wired (sid : Nat) (frameType : String) :
    Keeps wired (checkNotIdleStream sid frameType) := by
  unfold checkNotIdleStream
  grind

@[grind ←] theorem discardData_wired (sid size : Nat) : Keeps wired (discardData sid size) := by
  unfold discardData
  grind

@[grind ←] theorem receiveData_wired (f : DataFrame) (s : Stream) :
    Keeps wired (receiveData f s) := by
  unfold receiveData
  grind

theorem handleData_wired (f : DataFrame) : Keeps wired (handleData f) := by
  unfold handleData
  grind

theorem handleRstStream_wired (sid errorCode : Nat) : Keeps wired (handleRstStream sid errorCode) := by
  unfold handleRstStream
  grind

theorem handlePing_wired {ack : Bool} {opaqueData : Bytes} (hwhole : isWhole (.ping ack opaqueData) = true) :
    Keeps wired (handlePing ack opaqueData) := by
  unfold handlePing
  have hanswer : isWhole (.ping true opaqueData) = true := hwhole
  grind

@[grind ←] theorem handleStreamWindowUpdate_wired (sid increment : Nat) :
    Keeps wired (handleStreamWindowUpdate sid increment) := by
  refine keeps_bind (checkNotIdleStream_wired sid _) fun _ => keeps_bind keeps_get fun c => ?_
  cases c.stream? sid with
  | none => exact pushEvent_wired _
  | some s =>
    refine keeps_ite keeps_pure ?_
    cases s.flowControl.recvWindowUpdate increment with
    | error e => exact resetStream_wired sid rfl
    | ok fc =>
      exact keeps_bind (update_wired fun _ => rfl) fun _ =>
        keeps_bind (flushAndRemove_wired sid) fun _ => pushEvent_wired _

theorem handleWindowUpdate_wired (it : IterOrder) (sid increment : Nat) :
    Keeps wired (handleWindowUpdate it sid increment) := by
  unfold handleWindowUpdate
  grind

theorem handlePriorityUpdate_wired (sid : Nat) (value : Bytes) :
    Keeps wired (handlePriorityUpdate sid value) := by
  unfold handlePriorityUpdate
  grind

theorem handleUnknown_wired (sid : Nat) : Keeps wired (handleUnknown sid) := by
  unfold handleUnknown
  grind

@[grind ←] theorem resetHeadersValidationError_wired (sid : Nat) :
    Keeps wired (resetHeadersValidationError sid) := by
  unfold resetHeadersValidationError
  grind

@[grind ←] theorem receiveTrailers_wired (sid : Nat) (headers : List HeaderField) (endStream : Bool) :
    Keeps wired (receiveTrailers sid headers endStream) := by
  unfold receiveTrailers
  grind

@[grind ←] theorem receiveHeaders_wired (sid : Nat) (headers : List HeaderField) (endStream : Bool)
    (contentLength : Option Nat) : Keeps wired (receiveHeaders sid headers endStream contentLength) := by
  unfold receiveHeaders
  grind

@[grind ←] theorem receiveMessage_wired (sid : Nat) (headers : List HeaderField) (endStream : Bool) :
    Keeps wired (receiveMessage sid headers endStream) := by
  unfold receiveMessage
  grind

@[grind ←] theorem receiveRequest_wired (sid : Nat) (headers : List HeaderField) (endStream : Bool) :
    Keeps wired (receiveRequest sid headers endStream) := by
  refine keeps_bind keeps_get fun c => ?_
  cases validateRequestHeaders headers with
  | error e => exact resetHeadersValidationError_wired sid
  | ok u =>
    refine keeps_ite (resetHeadersValidationError_wired sid) ?_
    cases findValue headers ":method" with
    | none => exact receiveMessage_wired sid headers endStream
    | some method =>
      exact keeps_bind (ensureStream_wired sid) fun s => keeps_bind (update_wired fun _ => rfl) fun _ =>
        receiveMessage_wired sid headers endStream

@[grind ←] theorem receiveResponse_wired (sid : Nat) (headers : List HeaderField) (endStream : Bool) :
    Keeps wired (receiveResponse sid headers endStream) := by
  refine keeps_bind keeps_get fun c => ?_
  cases validateResponseHeaders headers with
  | error e => exact resetHeadersValidationError_wired sid
  | ok u =>
    cases c.stream? sid with
    | none => exact receiveMessage_wired sid headers endStream
    | some s =>
      exact keeps_bind (update_wired fun _ => rfl) fun _ => receiveMessage_wired sid headers endStream

@[grind ←] theorem processHeaders_wired (sid : Nat) (headers : List HeaderField) (endStream : Bool) :
    Keeps wired (processHeaders sid headers endStream) := by
  unfold processHeaders
  grind

@[grind ←] theorem decodeBlock_wired (sid : Nat) (fragment : Bytes) :
    Keeps wired (decodeBlock sid fragment) := by
  refine keeps_bind keeps_get fun c => keeps_bind (update_wired fun _ => rfl) fun _ => ?_
  cases (c.hpackDecoder.decode fragment).1 with
  | error e => exact keeps_throw
  | ok headers => exact keeps_bind (update_wired fun _ => rfl) fun _ => keeps_pure

@[grind ←] theorem finishBlock_wired (sid : Nat) (headers : List HeaderField) (endStream ignored : Bool) :
    Keeps wired (finishBlock sid headers endStream ignored) := by
  unfold finishBlock resetRefusedConcurrentStream resetConnectEstablishedHeaders
  grind

@[grind ←] theorem checkHeaderBlockFragmentSize_wired : Keeps wired checkHeaderBlockFragmentSize := by
  unfold checkHeaderBlockFragmentSize
  grind

@[grind ←] theorem collectHeaders_wired (f : HeadersFrame) (previouslyClosed : Bool) :
    Keeps wired (collectHeaders f previouslyClosed) := by
  refine keeps_bind (update_wired fun _ => rfl) fun _ => keeps_ite ?_ ?_
  · exact keeps_bind (decodeBlock_wired _ _) fun headers => finishBlock_wired _ headers _ _
  · exact keeps_bind (update_wired fun _ => rfl) fun _ => checkHeaderBlockFragmentSize_wired

theorem handleHeaders_wired (f : HeadersFrame) : Keeps wired (handleHeaders f) := by
  refine keeps_bind keeps_require fun _ => keeps_bind keeps_get fun c => keeps_bind keeps_require fun _ => ?_
  refine keeps_ite (collectHeaders_wired f true) (keeps_bind keeps_require fun _ => ?_)
  exact keeps_bind (modify_wired fun _ => ⟨rfl, rfl, rfl⟩) fun _ => collectHeaders_wired f false

theorem handleContinuation_wired (f : ContinuationFrame) : Keeps wired (handleContinuation f) := by
  refine keeps_bind keeps_get fun c => ?_
  cases c.headerContinuationStream with
  | none => exact keeps_throw
  | some sid =>
    refine keeps_bind keeps_require fun _ => keeps_bind (update_wired fun _ => rfl) fun _ => ?_
    refine keeps_bind checkHeaderBlockFragmentSize_wired fun _ => keeps_ite ?_ keeps_pure
    refine keeps_bind (update_wired fun _ => rfl) fun _ => keeps_bind (decodeBlock_wired sid _)
      fun headers => ?_
    exact keeps_bind (update_wired fun _ => rfl) fun _ => finishBlock_wired sid headers _ _

/-- The decoder complains with two codes only. -/
theorem decoder_narrow {e : Error} {code : ErrorCode} (h : e.ofDecoder = true)
    (hcode : e.errorCode = some code)
    (hstream : e.isStreamError = true) : isNarrow code = true := by
  obtain ⟨kind, reason⟩ := e
  cases kind with
  | connectionError code => cases hstream
  | streamError code' =>
    obtain rfl : code' = code := Option.some.inj hcode
    cases code' <;> first | rfl | cases h
  | hpackError => cases hstream

theorem rejectFrame_wired {e : Error} (h : e.ofDecoder = true) : Keeps wired (rejectFrame e) := by
  refine keeps_bind keeps_get fun c => ?_
  by_cases hstream : e.isStreamError = true
  · rw [if_pos hstream]
    cases c.frameDecoder.lastDecodedStreamId with
    | none => exact keeps_pure
    | some sid =>
      cases hcode : e.errorCode with
      | none => exact keeps_pure
      | some code =>
        exact keeps_bind keeps_require fun _ => keeps_bind (update_wired fun _ => rfl) fun _ =>
          resetStream_wired sid (decoder_narrow h hcode hstream)
  · rw [if_neg hstream]
    exact keeps_throw

theorem applySettings_wired (settings : List Setting) : Keeps wired (applySettings settings) := by
  have hmodify :
      ∀ {g : Connection → Connection}, (∀ c, (g c).outputBuffer = c.outputBuffer ∧ (g c).trace = c.trace ∧
      (g c).prefaceSent = c.prefaceSent) → Keeps wired (modify g : Conn Unit) := fun h => modify_wired h
  induction settings with
  | nil => exact keeps_pure
  | cons setting settings ih =>
    refine keeps_bind (keeps_bind keeps_get fun c => keeps_bind keeps_require fun _ => ?_) fun _ => ih
    cases setting with
    | noRfc7540Priorities value =>
      simp only
      cases c.initialNoRfc7540Priorities with
      | none => exact keeps_bind (hmodify fun _ => ⟨rfl, rfl, rfl⟩) fun _ => update_wired fun _ => rfl
      | some initial => exact keeps_bind keeps_require fun _ => update_wired fun _ => rfl
    | enableConnectProtocol value =>
      exact keeps_ite (keeps_bind (hmodify fun _ => ⟨rfl, rfl, rfl⟩) fun _ => update_wired fun _ => rfl)
        (keeps_bind keeps_require fun _ => update_wired fun _ => rfl)
    | _ => exact update_wired fun _ => rfl

theorem updateStreamWindows_wired (newSize : Nat) (sids : List Nat) :
    Keeps wired (updateStreamWindows newSize sids) := by
  induction sids with
  | nil => exact keeps_pure
  | cons sid sids ih =>
    refine keeps_bind keeps_get fun c => ?_
    cases c.stream? sid with
    | none => exact ih
    | some s => exact keeps_bind keeps_lift fun fc => keeps_bind (update_wired fun _ => rfl) fun _ => ih

@[grind ←] theorem settleSettings_wired (it : IterOrder) (old : Settings) :
    Keeps wired (settleSettings it old) := by
  refine keeps_bind (modify_wired fun _ => ⟨rfl, rfl, rfl⟩) fun _ => keeps_bind
    (update_wired fun _ => rfl) fun _ => ?_
  refine keeps_bind keeps_get fun c => keeps_ite ?_ (update_wired fun _ => rfl)
  exact keeps_bind (updateStreamWindows_wired _ _) fun _ => update_wired fun _ => rfl

theorem handleSettings_wired (it : IterOrder) (f : SettingsFrame) : Keeps wired (handleSettings it f) := by
  refine keeps_ite ?_ (keeps_bind keeps_get fun c => ?_)
  · refine keeps_bind keeps_get fun c => keeps_bind keeps_require fun _ => ?_
    exact keeps_bind (modify_wired fun _ => ⟨rfl, rfl, rfl⟩) fun _ => keeps_bind
      (update_wired fun _ => rfl) fun _ =>
      pushEvent_wired _
  · refine keeps_bind (applySettings_wired f.settings) fun _ => keeps_bind
      (settleSettings_wired it _) fun _ => ?_
    refine keeps_bind (sendFrame_wired rfl) fun _ => keeps_bind (flushAllStreamData_wired it) fun _ => ?_
    refine keeps_bind (pushEvent_wired _) fun _ => keeps_bind keeps_get fun c => ?_
    exact keeps_ite (keeps_bind (update_wired fun _ => rfl) fun _ => pushEvent_wired _) keeps_pure

theorem dispatchFrame_wired (it : IterOrder) {f : Frame} (hwhole : isWhole f = true) :
    Keeps wired (dispatchFrame it f) := by
  cases f with
  | data f => exact handleData_wired f
  | headers f => exact handleHeaders_wired f
  | priority _ _ => exact keeps_pure
  | rstStream sid errorCode => exact handleRstStream_wired sid errorCode
  | settings f => exact handleSettings_wired it f
  | pushPromise _ => exact keeps_throw
  | ping ack opaqueData => exact handlePing_wired hwhole
  | goaway f => exact keeps_bind (update_wired fun _ => rfl) fun _ => pushEvent_wired _
  | windowUpdate sid increment => exact handleWindowUpdate_wired it sid increment
  | continuation f => exact handleContinuation_wired f
  | priorityUpdate sid value => exact handlePriorityUpdate_wired sid value
  | unknown header payload => exact handleUnknown_wired header.streamId

/-- A frame that is handled is received, whatever comes of it. -/
theorem handleFrame_wired (it : IterOrder) {f : Frame} (hwhole : isWhole f = true) (c : Connection) :
    wired (handleFrame it f c).2 = (octets c, receivedFrames c.trace ++ [f]) := by
  let handled : Conn Unit := do
    let c ← get
    require (¬ (c.state = .waitingPreface ∧ c.role = .server ∧ c.prefaceReceived = false))
      (.connectionError .protocolError "client connection preface not received")
    require (c.state = .waitingPreface → isInitialSettings f = true)
      (.connectionError .protocolError "first frame must be SETTINGS")
    require (continues c.headerContinuationStream f = true)
      (.connectionError .protocolError "expected CONTINUATION frame")
    dispatchFrame it f
  have hhandled : Keeps wired handled := keeps_bind keeps_get fun _ => keeps_bind keeps_require fun _ =>
    keeps_bind keeps_require fun _ => keeps_bind keeps_require fun _ => dispatchFrame_wired it hwhole
  exact hhandled (c.setCore (c.toCore.log (.received f)))

/-! ## Calls and runs -/

theorem inRange_whole {f : Frame} (h : f.InRange) : isWhole f = true := by
  cases f with
  | ping ack opaqueData => simpa [isWhole, Frame.InRange] using h
  | windowUpdate sid increment => simpa [isWhole, Frame.InRange] using h.2
  | rstStream sid errorCode => simpa [isWhole] using h.2.2
  | goaway f => simpa [isWhole] using h.2
  | _ => rfl

section

variable {it : IterOrder} {c d : Connection}

/-- What one turn leaves as it was, and that the decoder stays in range. -/
def Turned (c d : Connection) : Prop := d.frameDecoder.InRange ∧ octets d = octets c

/-- A turn on a frame takes it in and no other. -/
theorem frame_wired {f : Frame} {rest : FrameDecoder} {r : Except Error Unit}
    (hrange : c.frameDecoder.InRange)
    (hdecode : c.frameDecoder.decode = (.ok (some f), rest))
    (hrun : handleFrame it f (c.take rest) = (r, d)) :
    Turned c d ∧ d.frameDecoder = rest ∧ receivedFrames d.trace = receivedFrames c.trace ++ [f] := by
  obtain ⟨hrest, hframe⟩ := FrameDecoder.decode_inRange hrange hdecode
  have hkept : d.frameDecoder = rest := congrArg Prod.fst ((handleFrame_intake it f).run hrun)
  have hwired := handleFrame_wired it (inRange_whole (hframe f rfl)) (c.take rest)
  rw [hrun] at hwired
  exact ⟨⟨hkept ▸ hrest, congrArg Prod.fst hwired⟩, hkept, congrArg Prod.snd hwired⟩

theorem reject_wired {e : Error} {rest : FrameDecoder} {r : Except Error Unit}
    (hrange : c.frameDecoder.InRange)
    (hdecode : c.frameDecoder.decode = (.error e, rest)) (hrun : rejectFrame e (c.take rest) = (r, d)) :
    Turned c d := by
  obtain ⟨hrest, _⟩ := FrameDecoder.decode_inRange hrange hdecode
  have hkept : d.frameDecoder = rest := congrArg Guards.frameDecoder ((rejectFrame_keeps e).run hrun)
  have hcomplains := c.frameDecoder.decode_complains e (congrArg Prod.fst hdecode)
  have hsame : wired d = wired (c.take rest) := (rejectFrame_wired hcomplains).run hrun
  exact ⟨hkept ▸ hrest, congrArg Prod.fst hsame⟩

theorem passes_wired (h : Passes it c d) (hrange : c.frameDecoder.InRange) : Turned c d := by
  cases h with
  | frame hdecode hrun => exact (frame_wired hrange hdecode hrun).1
  | reject hdecode hrun => exact reject_wired hrange hdecode hrun

theorem finishes_wired {r : Except Error Unit} (h : Finishes it c r d) (hrange : c.frameDecoder.InRange) :
    Turned c d := by
  cases r with
  | ok u =>
    obtain ⟨rest, hdecode, rfl⟩ := h
    exact ⟨(FrameDecoder.decode_inRange hrange hdecode).1, rfl⟩
  | error e =>
    cases h with
    | frame hdecode hrun => exact (frame_wired hrange hdecode hrun).1
    | reject hdecode hrun => exact reject_wired hrange hdecode hrun

theorem process_wired {r : Except Error Unit} (h : process it c = (r, d)) (hrange : c.frameDecoder.InRange) :
    Turned c d := by
  obtain ⟨c', hreach, hfinishes⟩ := process_iff.1 h
  have hreached : Turned c c' := by
    clear hfinishes h
    induction hreach with
    | refl => exact ⟨hrange, rfl⟩
    | tail _ hpasses ih =>
      obtain ⟨hrange', hsame⟩ := passes_wired hpasses ih.1
      exact ⟨hrange', hsame.trans ih.2⟩
  obtain ⟨hrange', hsame⟩ := finishes_wired hfinishes hreached.1
  exact ⟨hrange', hsame.trans hreached.2⟩

end

/-- The octets that a call handed out. -/
def handed (r : Record) : Bytes :=
  match r.result with
  | .ok (.output (some bytes)) => bytes
  | _ => []

/-- The octets that `poll_output` has handed out, the first ones first. -/
def polled : List Record → Bytes
  | [] => []
  | r :: earlier => polled earlier ++ handed r

/-- What the types of the source say of arguments: ids have 31 bits, codes 32, and a PING has eight
octets. -/
def typed : Call → Prop
  | .sendResponse sid _ _ | .sendTrailers sid _ | .sendData sid _ _ | .sendWindowUpdate sid _ => sid < 2 ^ 31
  | .resetStream sid errorCode => sid < 2 ^ 31 ∧ isNarrow errorCode = true
  | .sendPing opaqueData => opaqueData.length = 8
  | .sendGoaway errorCode _ => isNarrow errorCode = true
  | _ => True

theorem returned {α : Type} {m : Conn α} {f : α → Value} {c : Connection} {v : Value}
    (h : ((do return f (← m)) c : Except Error Value × Connection).1 = .ok v) : ∃ a, v = f a := by
  cases hrun : m c with
  | mk r d =>
    cases r with
    | ok a =>
      rw [bind_ok hrun] at h
      exact ⟨a, (Except.ok.inj h).symm⟩
    | error e =>
      rw [bind_error hrun] at h
      cases h

/-- Only `poll_output` hands octets out. -/
theorem handed_none {k : Call} (hk : k ≠ .pollOutput) (c : Connection) : handed ⟨k, (k.exec c).1⟩ = [] := by
  have hreturns : ∀ {α : Type} {m : Conn α} {f : α → Value}, (∀ a bytes, f a ≠ .output (some bytes)) →
      handed ⟨k, ((do return f (← m)) c : Except Error Value × Connection).1⟩ = [] := by
    intro α m f hf
    unfold handed
    split
    · rename_i bytes hbytes
      obtain ⟨a, ha⟩ := returned hbytes
      exact absurd ha.symm (hf a bytes)
    · rfl
  cases k with
  | pollOutput => exact absurd rfl hk
  | feed data => exact hreturns (f := .length) fun _ _ h => by cases h
  | pollEvent => exact hreturns (f := .event) fun _ _ h => by cases h
  | startStream headers endStream => exact hreturns (f := .streamId) fun _ _ h => by cases h
  | _ => exact hreturns (f := fun _ : Unit => .unit) fun _ _ h => by cases h

section

variable {c : Connection} {start drained : Bytes}

theorem feed_wired (data : Bytes) (c : Connection) : Ensures (feed data) c fun _ d =>
    d.frameDecoder.currentHeader = c.frameDecoder.currentHeader ∧ wired d = wired c := by
  simp only [feed, ensures_bind, ensures_get, ensures_ite, ensures_modify, ensures_require, ensures_pure]
  refine ⟨fun _ => ⟨fun _ => ⟨fun _ => ?_, fun _ => ?_⟩, fun _ => ?_⟩, fun _ => ?_⟩
  all_goals exact ⟨by trivial, by trivial⟩

/-- Only `feed` and `process` touch the decoder. -/
theorem exec_decoder {k : Call} (hfeed : ∀ data, k ≠ .feed data) (hprocess : ∀ it, k ≠ .process it) :
    (k.exec c).2.frameDecoder = c.frameDecoder := by
  by_cases hpreface : k = .markPrefaceReceived
  · subst hpreface
    rfl
  by_cases hgoaway : ∃ errorCode debugData, k = .sendGoaway errorCode debugData
  · obtain ⟨errorCode, debugData, rfl⟩ := hgoaway
    rfl
  · have hguards := exec_keeps hfeed hpreface hprocess
      (fun errorCode debugData h => hgoaway ⟨errorCode, debugData, h⟩) c
    exact congrArg Guards.frameDecoder hguards

/-- Every call leaves the decoder in range. -/
theorem exec_inRange (k : Call) (hrange : c.frameDecoder.InRange) : (k.exec c).2.frameDecoder.InRange := by
  by_cases hprocess : ∃ it, k = .process it
  · obtain ⟨it, rfl⟩ := hprocess
    have hexec : ((Call.process it).exec c).2 = (process it c).2 := exec_value
    rw [hexec]
    have hturned := process_wired (Prod.eta (process it c)).symm hrange
    exact hturned.1
  by_cases hfeed : ∃ data, k = .feed data
  · obtain ⟨data, rfl⟩ := hfeed
    have hexec : ((Call.feed data).exec c).2 = (feed data c).2 := exec_value
    have hsame := (feed_wired data c).1
    rw [hexec, FrameDecoder.InRange, hsame]
    exact hrange
  · rw [exec_decoder (fun data h => hfeed ⟨data, h⟩) (fun it h => hprocess ⟨it, h⟩)]
    exact hrange

/-- What hands nothing out and takes nothing in leaves all that the channels see. -/
theorem exec_wired {k : Call} (hk : typed k) (hpoll : k ≠ .pollOutput) (hprocess : ∀ it, k ≠ .process it)
    (hsent : c.prefaceSent = true) : wired (k.exec c).2 = wired c := by
  have hunit : ∀ {m : Conn Unit}, Keeps wired m → Keeps wired (Call.unitValue m) :=
    fun hm => unitValue_keeps hm
  cases k with
  | initiate =>
    have hexec : (Call.initiate.exec c).2 = (initiate c).2 := exec_value
    have hnothing : initiate c = (.ok (), c) := by
      rw [initiate, bind_ok (m := get) rfl, if_pos hsent]
      rfl
    rw [hexec, hnothing]
  | feed data =>
    have hexec : ((Call.feed data).exec c).2 = (feed data c).2 := exec_value
    rw [hexec]
    exact (feed_wired data c).2
  | markPrefaceReceived => rfl
  | markPrefaceSent => exact Prod.ext (octets_congr rfl rfl hsent.symm) rfl
  | sendSettings => exact hunit sendSettings_wired c
  | process it => exact absurd rfl (hprocess it)
  | pollEvent => rfl
  | pollOutput => exact absurd rfl hpoll
  | startStream headers endStream =>
    exact keeps_bind (startStream_wired headers endStream) (fun _ => keeps_pure) c
  | sendResponse sid headers endStream => exact hunit (sendResponse_wired sid headers endStream) c
  | sendTrailers sid headers => exact hunit (sendTrailers_wired sid headers) c
  | sendData sid data endStream => exact hunit (sendData_wired sid data endStream) c
  | resetStream sid errorCode => exact hunit (resetStream_wired sid hk.2) c
  | sendPing opaqueData =>
    have hwhole : isWhole (.ping false opaqueData) = true := by simpa [isWhole, typed] using hk
    exact hunit (sendFrame_wired hwhole) c
  | sendGoaway errorCode debugData =>
    have hcode : errorCode.asU32 < 2 ^ 32 := narrow_code hk
    have hgoaway : Keeps wired (sendGoaway errorCode debugData) :=
      keeps_bind keeps_get fun _ => keeps_bind (sendFrame_wired (by simpa [isWhole] using hcode)) fun _ =>
        update_wired fun _ => rfl
    exact hunit hgoaway c
  | sendWindowUpdate sid increment => exact hunit (sendWindowUpdate_wired sid increment) c

/-- Every call that hands nothing out leaves what is there in front of the frames that it sends. -/
theorem exec_octets {k : Call} (hk : typed k) (hpoll : k ≠ .pollOutput) (hrange : c.frameDecoder.InRange)
    (hsent : c.prefaceSent = true) : octets (k.exec c).2 = octets c := by
  by_cases hprocess : ∃ it, k = .process it
  · obtain ⟨it, rfl⟩ := hprocess
    have hexec : ((Call.process it).exec c).2 = (process it c).2 := exec_value
    rw [hexec]
    have hturned := process_wired (Prod.eta (process it c)).symm hrange
    exact hturned.2
  · exact congrArg Prod.fst (exec_wired hk hpoll (fun it h => hprocess ⟨it, h⟩) hsent)

end

/-! ## Runs -/

/-- A connection that has called `initiate` and nothing else. -/
def initiated (role : Role) (limits : Limits) : Connection :=
  (Call.initiate.exec (Connection.new role limits)).2

theorem initiated_octets (role : Role) (limits : Limits) :
    octets (initiated role limits) (prologue role) [] := by
  have hexec : initiated role limits = (initiate (Connection.new role limits)).2 := exec_value
  have hensures : Ensures initiate (Connection.new role limits) fun _ d => octets d (prologue role) [] := by
    simp only [initiate, ensures_bind, ensures_get, ensures_ite, ensures_modify]
    refine ⟨fun hsent => absurd hsent Bool.false_ne_true, fun _ => ?_⟩
    rw [ensures_sendFrame (f := .settings _) rfl]
    apply ensures_mono (sendInitialConnectionWindowUpdate_wired.ensures _)
    intro r d hd
    have hsame : octets d = _ := congrArg Prod.fst hd
    rw [hsame]
    refine ⟨?_, ?_, rfl⟩
    · let f : Frame := .settings ⟨false, settingsToSend role (Settings.fromLimits limits)⟩
      have hflat : [f].flatMap Frame.wire = f.wire := List.append_nil f.wire
      change _ = prologue role ++ [f].flatMap Frame.wire
      rw [hflat]
      cases role <;> rfl
    · intro f hf
      obtain rfl := List.mem_singleton.1 hf
      rfl
  rw [hexec]
  exact hensures

theorem initiated_inRange (role : Role) (limits : Limits) : (initiated role limits).frameDecoder.InRange :=
  exec_inRange .initiate (FrameDecoder.new_inRange limits.maxFrameSize)

/-- What has been taken out and what is there to take are the opening and the frames that were sent. -/
theorem run_octets {T : Terms} {role : Role} {limits : Limits} {history : List Record} {c : Connection}
    (h : RunOf T (initiated role limits) history c) (htyped : ∀ r ∈ history, typed r.call) :
    octets c (prologue role) (polled history) ∧ c.frameDecoder.InRange := by
  induction h with
  | start => exact ⟨initiated_octets role limits, initiated_inRange role limits⟩
  | @call history c k _ _ _ ih =>
    obtain ⟨hk, hhistory⟩ := List.forall_mem_cons.1 htyped
    obtain ⟨hoctets, hrange⟩ := ih hhistory
    refine ⟨?_, exec_inRange k hrange⟩
    rw [polled]
    by_cases hpoll : k = .pollOutput
    · subst hpoll
      obtain ⟨hjoined, hwhole, hsent⟩ := hoctets
      have hpolled : polled history ++ handed ⟨.pollOutput, (Call.pollOutput.exec c).1⟩ =
          polled history ++ c.outputBuffer := by
        have hresult : (Call.pollOutput.exec c).1 =
            .ok (.output (if c.outputBuffer.isEmpty then none else some c.outputBuffer)) := rfl
        rw [hresult]
        cases houtput : c.outputBuffer with
        | nil => rfl
        | cons octet octets => rfl
      refine ⟨?_, hwhole, hsent⟩
      rw [hpolled]
      exact (List.append_nil _).trans hjoined
    · rw [handed_none hpoll, List.append_nil, exec_octets hk hpoll hrange hoctets.2.2]
      exact hoctets

end Wire

end Http2
