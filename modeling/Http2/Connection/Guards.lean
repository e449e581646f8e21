import Http2.Connection.Flush

/-! What the handlers of frames leave alone: the octets that were fed, and what is remembered of the
peer's SETTINGS. -/
namespace Http2

open Hpack Lib Lib.Prog

/-- The header block in progress, and what was noted of its stream. -/
structure HeaderFields where
  headerContinuationStream : Option Nat
  headerBlockFragment : Bytes
  headerEndStream : Bool
  headerConcurrentLimitExceeded : Bool
  connectEstablishedHeadersReceived : Bool

/-- No block is in progress, and nothing is left of the last. -/
def HeaderFields.idle : HeaderFields := ⟨none, [], false, false, false⟩

@[simps] def Connection.headerFields (c : Connection) : HeaderFields where
  headerContinuationStream := c.headerContinuationStream
  headerBlockFragment := c.headerBlockFragment
  headerEndStream := c.headerEndStream
  headerConcurrentLimitExceeded := c.headerConcurrentLimitExceeded
  connectEstablishedHeadersReceived := c.connectEstablishedHeadersReceived

/-- The fields that decide what may be handled. -/
structure Guards where
  state : ConnectionState
  frameDecoder : FrameDecoder
  prefaceReceived : Bool
  prefaceBuffer : Bytes
  initialNoRfc7540Priorities : Option Bool
  peerSentEnableConnectProtocol : Bool
  headerFields : HeaderFields

@[simps] def Connection.guards (c : Connection) : Guards where
  state := c.state
  frameDecoder := c.frameDecoder
  prefaceReceived := c.prefaceReceived
  prefaceBuffer := c.prefaceBuffer
  initialNoRfc7540Priorities := c.initialNoRfc7540Priorities
  peerSentEnableConnectProtocol := c.peerSentEnableConnectProtocol
  headerFields := c.headerFields

/-- Those of them that the core holds. -/
def Core.stage (c : Core) : ConnectionState × Option Nat × Bytes × Bool :=
  (c.state, c.headerContinuationStream, c.headerBlockFragment, c.headerEndStream)

namespace Connection

section

variable (c : Core) (sid : Nat)

@[grind =] theorem log_stage (i : Item) : (c.log i).stage = c.stage := rfl

@[grind =] theorem putStream_stage (s : Stream) : (c.putStream sid s).stage = c.stage := rfl

@[grind =] theorem dropStream_stage : (c.dropStream sid).stage = c.stage := rfl

@[grind =] theorem setFlow_stage (fc : FlowControl) : (c.setFlow fc).stage = c.stage := rfl

@[grind =] theorem noteSuccessful_stage : (c.noteSuccessful sid).stage = c.stage := rfl

end

/-! ## Operations -/

@[grind ←] theorem update_keeps {g : Core → Core} (h : ∀ c, (g c).stage = c.stage) :
    Keeps guards (update g) := by
  intro c
  change Connection.guards (c.setCore (g c.toCore)) = c.guards
  have hstage := h c.toCore
  simp only [Core.stage, Prod.mk.injEq] at hstage
  simp [guards, headerFields, setCore, hstage]

@[grind ←] theorem modify_keeps {g : Connection → Connection} (h : ∀ c, (g c).guards = c.guards) :
    Keeps guards (modify g : Conn Unit) := h

@[grind ←] theorem pushEvent_keeps (e : Event) : Keeps guards (pushEvent e) := fun _ => rfl

@[grind ←] theorem sendFrame_keeps (f : Frame) : Keeps guards (sendFrame f) := by
  unfold sendFrame
  split
  · exact keeps_throw
  · exact fun _ => rfl

@[grind ←] theorem closeStream_keeps (sid : Nat) : Keeps guards (closeStream sid) := by
  unfold closeStream
  grind

@[grind ←] theorem closeIf_keeps (sid : Nat) (closed : Bool) : Keeps guards (closeIf sid closed) := by
  unfold closeIf
  grind

@[grind ←] theorem resetStreamInternal_keeps (sid : Nat) (errorCode : ErrorCode) (consumed : Nat) :
    Keeps guards (resetStreamInternal sid errorCode consumed) := by
  unfold resetStreamInternal
  grind

@[grind ←] theorem resetStream_keeps (sid : Nat) (errorCode : ErrorCode) :
    Keeps guards (resetStream sid errorCode) := resetStreamInternal_keeps sid errorCode 0

@[grind ←] theorem ensureStream_keeps (sid : Nat) : Keeps guards (ensureStream sid) := by
  unfold ensureStream
  grind [Core.openStream]

@[grind ←] theorem tryRemoveClosedStream_keeps (sid : Nat) :
    Keeps guards (tryRemoveClosedStream sid) := by
  unfold tryRemoveClosedStream
  grind

theorem flushTurn_keeps (sid : Nat) : Keeps guards (flushTurn sid) := by
  refine keeps_bind keeps_get fun c => ?_
  cases c.stream? sid with
  | none => exact keeps_pure
  | some s =>
    refine keeps_ite keeps_pure (keeps_ite keeps_pure ?_)
    refine keeps_bind (update_keeps fun _ => rfl) fun _ => keeps_bind keeps_lift fun fc => ?_
    refine keeps_bind (update_keeps fun _ => rfl) fun _ => keeps_bind keeps_lift fun fc' => ?_
    grind

theorem flushLoop_keeps (sid fuel : Nat) : Keeps guards (flushLoop sid fuel) := by
  induction fuel with
  | zero => exact keeps_pure
  | succ fuel ih =>
    refine keeps_bind (flushTurn_keeps sid) fun turn => ?_
    split
    · exact ih
    · exact keeps_pure

theorem flushEnd_keeps (sid : Nat) : Keeps guards (flushEnd sid) := by
  refine keeps_bind keeps_get fun c => ?_
  cases c.stream? sid with
  | none => exact keeps_pure
  | some s =>
    refine keeps_ite (keeps_bind (update_keeps fun _ => rfl) fun _ => ?_) keeps_pure
    exact keeps_bind keeps_lift fun state => keeps_bind (update_keeps fun _ => rfl) fun _ =>
      sendFrame_keeps _

@[grind ←] theorem flushAndRemove_keeps (sid : Nat) : Keeps guards (flushAndRemove sid) := by
  refine keeps_bind (keeps_bind keeps_get fun c => ?_) fun _ => tryRemoveClosedStream_keeps sid
  refine keeps_bind (flushLoop_keeps sid _) fun turn => ?_
  split
  · exact flushEnd_keeps sid
  · exact keeps_pure

theorem flushEach_keeps (sids : List Nat) : Keeps guards (flushEach sids) := by
  induction sids with
  | nil => exact keeps_pure
  | cons sid sids ih => exact keeps_bind (flushAndRemove_keeps sid) fun _ => ih

@[grind ←] theorem flushAllStreamData_keeps (it : IterOrder) : Keeps guards (flushAllStreamData it) :=
  keeps_bind keeps_get fun _ => flushEach_keeps _

/-! ## Calls -/

theorem sendFrames_keeps (fs : List Frame) : Keeps guards (sendFrames fs) := by
  induction fs with
  | nil => exact keeps_pure
  | cons f fs ih => exact keeps_bind (sendFrame_keeps f) fun _ => ih

@[grind ←] theorem encodeAndSend_keeps (sid : Nat) (headers : List HeaderField) (endStream : Bool) :
    Keeps guards (encodeAndSend sid headers endStream) := by
  refine keeps_bind keeps_get fun c => keeps_bind (update_keeps fun _ => rfl) fun _ => ?_
  exact keeps_bind keeps_get fun c => keeps_bind (update_keeps fun _ => rfl) fun _ => sendFrames_keeps _

@[grind ←] theorem checkPeerListSize_keeps (headers : List HeaderField) :
    Keeps guards (checkPeerListSize headers) := by
  unfold checkPeerListSize
  grind

@[grind ←] theorem liveStream_keeps (c : Core) (sid : Nat) : Keeps guards (liveStream c sid) := by
  unfold liveStream
  grind

@[grind ←] theorem sendWindowUpdate_keeps (sid increment : Nat) :
    Keeps guards (sendWindowUpdate sid increment) := by
  refine keeps_bind keeps_require fun _ => keeps_bind keeps_require fun _ => ?_
  refine keeps_bind keeps_get fun c => keeps_ite ?_ ?_
  · grind
  · cases c.stream? sid with
    | none => exact sendFrame_keeps _
    | some s => grind

@[grind ←] theorem sendInitialConnectionWindowUpdate_keeps :
    Keeps guards sendInitialConnectionWindowUpdate := by
  unfold sendInitialConnectionWindowUpdate
  grind [Connection.guards, Connection.headerFields]

theorem sendSettings_keeps : Keeps guards sendSettings := by
  unfold sendSettings
  grind [Connection.guards, Connection.headerFields]

theorem initiate_keeps : Keeps guards initiate := by
  unfold initiate
  grind [Connection.guards, Connection.headerFields]

theorem checkStart_keeps (headers : List HeaderField) : Keeps guards (checkStart headers) := by
  refine keeps_bind keeps_lift fun _ => keeps_bind keeps_get fun c => ?_
  refine keeps_bind keeps_require fun _ => keeps_bind keeps_require fun _ => ?_
  grind

theorem startStream_keeps (headers : List HeaderField) (endStream : Bool) :
    Keeps guards (startStream headers endStream) := by
  refine keeps_bind (checkStart_keeps headers) fun _ => keeps_bind keeps_get fun c => ?_
  refine keeps_bind (update_keeps fun _ => rfl) fun _ => keeps_bind keeps_lift fun state => ?_
  exact keeps_bind (update_keeps fun _ => rfl) fun _ =>
    keeps_bind (encodeAndSend_keeps _ headers endStream) fun _ => keeps_pure

@[grind ←] theorem sendSection_keeps (sid : Nat) (headers : List HeaderField) (endStream : Bool)
    (note : Stream → Stream) : Keeps guards (sendSection sid headers endStream note) := by
  unfold sendSection
  grind

theorem sendResponse_keeps (sid : Nat) (headers : List HeaderField) (endStream : Bool) :
    Keeps guards (sendResponse sid headers endStream) := by
  unfold sendResponse checkNoTunnel checkSendBufferEmpty
  grind

theorem sendTrailers_keeps (sid : Nat) (headers : List HeaderField) :
    Keeps guards (sendTrailers sid headers) := by
  unfold sendTrailers checkNoTunnel checkSendBufferEmpty
  grind

@[grind ←] theorem queueData_keeps (sid : Nat) (data : Bytes) (endStream : Bool) :
    Keeps guards (queueData sid data endStream) := by
  unfold queueData
  grind

theorem sendData_keeps (sid : Nat) (data : Bytes) (endStream : Bool) :
    Keeps guards (sendData sid data endStream) := by
  unfold sendData
  grind

/-! ## Frames -/

@[grind ←] theorem checkNotIdleStream_keeps (sid : Nat) (frameType : String) :
    Keeps guards (checkNotIdleStream sid frameType) := by
  unfold checkNotIdleStream
  grind

@[grind ←] theorem discardData_keeps (sid size : Nat) : Keeps guards (discardData sid size) := by
  unfold discardData
  grind

@[grind ←] theorem receiveData_keeps (f : DataFrame) (s : Stream) :
    Keeps guards (receiveData f s) := by
  unfold receiveData
  grind

theorem handleData_keeps (f : DataFrame) : Keeps guards (handleData f) := by
  unfold handleData
  grind

theorem handleRstStream_keeps (sid errorCode : Nat) : Keeps guards (handleRstStream sid errorCode) := by
  unfold handleRstStream
  grind

theorem handlePing_keeps (ack : Bool) (opaqueData : Bytes) :
    Keeps guards (handlePing ack opaqueData) := by
  unfold handlePing
  grind

@[grind ←] theorem handleStreamWindowUpdate_keeps (sid increment : Nat) :
    Keeps guards (handleStreamWindowUpdate sid increment) := by
  refine keeps_bind (checkNotIdleStream_keeps sid _) fun _ => keeps_bind keeps_get fun c => ?_
  cases c.stream? sid with
  | none => exact pushEvent_keeps _
  | some s =>
    refine keeps_ite keeps_pure ?_
    cases s.flowControl.recvWindowUpdate increment with
    | error e => exact resetStream_keeps sid _
    | ok fc =>
      exact keeps_bind (update_keeps fun _ => rfl) fun _ =>
        keeps_bind (flushAndRemove_keeps sid) fun _ => pushEvent_keeps _

theorem handleWindowUpdate_keeps (it : IterOrder) (sid increment : Nat) :
    Keeps guards (handleWindowUpdate it sid increment) := by
  unfold handleWindowUpdate
  grind

theorem handlePriorityUpdate_keeps (sid : Nat) (value : Bytes) :
    Keeps guards (handlePriorityUpdate sid value) := by
  unfold handlePriorityUpdate
  grind

theorem handleUnknown_keeps (sid : Nat) : Keeps guards (handleUnknown sid) := by
  unfold handleUnknown
  grind

@[grind ←] theorem resetHeadersValidationError_keeps (sid : Nat) :
    Keeps guards (resetHeadersValidationError sid) := by
  unfold resetHeadersValidationError
  grind

@[grind ←] theorem receiveTrailers_keeps (sid : Nat) (headers : List HeaderField) (endStream : Bool) :
    Keeps guards (receiveTrailers sid headers endStream) := by
  unfold receiveTrailers
  grind

@[grind ←] theorem receiveHeaders_keeps (sid : Nat) (headers : List HeaderField) (endStream : Bool)
    (contentLength : Option Nat) : Keeps guards (receiveHeaders sid headers endStream contentLength) := by
  unfold receiveHeaders
  grind

@[grind ←] theorem receiveMessage_keeps (sid : Nat) (headers : List HeaderField) (endStream : Bool) :
    Keeps guards (receiveMessage sid headers endStream) := by
  unfold receiveMessage
  grind

@[grind ←] theorem receiveRequest_keeps (sid : Nat) (headers : List HeaderField) (endStream : Bool) :
    Keeps guards (receiveRequest sid headers endStream) := by
  refine keeps_bind keeps_get fun c => ?_
  cases validateRequestHeaders headers with
  | error e => exact resetHeadersValidationError_keeps sid
  | ok u =>
    refine keeps_ite (resetHeadersValidationError_keeps sid) ?_
    cases findValue headers ":method" with
    | none => exact receiveMessage_keeps sid headers endStream
    | some method =>
      exact keeps_bind (ensureStream_keeps sid) fun s => keeps_bind (update_keeps fun _ => rfl) fun _ =>
        receiveMessage_keeps sid headers endStream

@[grind ←] theorem receiveResponse_keeps (sid : Nat) (headers : List HeaderField) (endStream : Bool) :
    Keeps guards (receiveResponse sid headers endStream) := by
  refine keeps_bind keeps_get fun c => ?_
  cases validateResponseHeaders headers with
  | error e => exact resetHeadersValidationError_keeps sid
  | ok u =>
    cases c.stream? sid with
    | none => exact receiveMessage_keeps sid headers endStream
    | some s =>
      exact keeps_bind (update_keeps fun _ => rfl) fun _ => receiveMessage_keeps sid headers endStream

@[grind ←] theorem processHeaders_keeps (sid : Nat) (headers : List HeaderField) (endStream : Bool) :
    Keeps guards (processHeaders sid headers endStream) := by
  unfold processHeaders
  grind

@[grind ←] theorem decodeBlock_keeps (sid : Nat) (fragment : Bytes) :
    Keeps guards (decodeBlock sid fragment) := by
  refine keeps_bind keeps_get fun c => keeps_bind (update_keeps fun _ => rfl) fun _ => ?_
  cases (c.hpackDecoder.decode fragment).1 with
  | error e => exact keeps_throw
  | ok headers => exact keeps_bind (update_keeps fun _ => rfl) fun _ => keeps_pure

/-- All but what is known of header blocks. -/
def bearing (c : Connection) : Guards := { c.guards with headerFields := .idle }

@[grind ←] theorem bearing_of_guards {α : Type} {m : Conn α} (h : Keeps guards m) : Keeps bearing m :=
  fun c => congrArg (fun g : Guards => { g with headerFields := .idle }) (h c)

@[grind ←] theorem update_bearing {g : Core → Core} (h : ∀ c, (g c).state = c.state) :
    Keeps bearing (update g) := by
  intro c
  change Connection.bearing (c.setCore (g c.toCore)) = c.bearing
  simp [bearing, guards, setCore, h]

@[grind ←] theorem finishBlock_bearing (sid : Nat) (headers : List HeaderField)
    (endStream ignored : Bool) : Keeps bearing (finishBlock sid headers endStream ignored) := by
  unfold finishBlock resetRefusedConcurrentStream resetConnectEstablishedHeaders
  grind [bearing, Connection.guards, Connection.headerFields]

@[grind ←] theorem checkHeaderBlockFragmentSize_keeps : Keeps guards checkHeaderBlockFragmentSize := by
  unfold checkHeaderBlockFragmentSize
  grind

@[grind ←] theorem collectHeaders_bearing (f : HeadersFrame) (previouslyClosed : Bool) :
    Keeps bearing (collectHeaders f previouslyClosed) := by
  refine keeps_bind (update_bearing fun _ => rfl) fun _ => keeps_ite ?_ ?_
  · exact keeps_bind (bearing_of_guards (decodeBlock_keeps _ _)) fun headers =>
      finishBlock_bearing _ headers _ _
  · exact keeps_bind (update_bearing fun _ => rfl) fun _ =>
      bearing_of_guards checkHeaderBlockFragmentSize_keeps

theorem handleHeaders_bearing (f : HeadersFrame) : Keeps bearing (handleHeaders f) := by
  refine keeps_bind keeps_require fun _ => keeps_bind keeps_get fun c => keeps_bind keeps_require fun _ => ?_
  refine keeps_ite (collectHeaders_bearing f true) (keeps_bind keeps_require fun _ => ?_)
  exact keeps_bind (fun _ => rfl) fun _ => collectHeaders_bearing f false

theorem handleContinuation_bearing (f : ContinuationFrame) : Keeps bearing (handleContinuation f) := by
  refine keeps_bind keeps_get fun c => ?_
  cases c.headerContinuationStream with
  | none => exact keeps_throw
  | some sid =>
    refine keeps_bind keeps_require fun _ => keeps_bind (update_bearing fun _ => rfl) fun _ => ?_
    refine keeps_bind (bearing_of_guards checkHeaderBlockFragmentSize_keeps) fun _ =>
      keeps_ite ?_ keeps_pure
    refine keeps_bind (update_bearing fun _ => rfl) fun _ =>
      keeps_bind (bearing_of_guards (decodeBlock_keeps sid _)) fun headers => ?_
    exact keeps_bind (update_bearing fun _ => rfl) fun _ => finishBlock_bearing sid headers _ _

theorem rejectFrame_keeps (e : Error) : Keeps guards (rejectFrame e) := by
  unfold rejectFrame
  grind

/-- What every frame leaves alone of all this. -/
def intake (c : Connection) : FrameDecoder × Bool × Bytes :=
  (c.frameDecoder, c.prefaceReceived, c.prefaceBuffer)

/-- What a SETTINGS frame leaves alone. -/
def outline (c : Connection) : (FrameDecoder × Bool × Bytes) × HeaderFields := (c.intake, c.headerFields)

theorem outline_of_guards {α : Type} {m : Conn α} (h : Keeps guards m) : Keeps outline m :=
  fun c => congrArg
    (fun g : Guards => ((g.frameDecoder, g.prefaceReceived, g.prefaceBuffer), g.headerFields)) (h c)

theorem modify_outline {g : Connection → Connection} (h : ∀ c, (g c).outline = c.outline) :
    Keeps outline (modify g : Conn Unit) := h

theorem applySettings_outline (settings : List Setting) : Keeps outline (applySettings settings) := by
  induction settings with
  | nil => exact keeps_pure
  | cons setting settings ih =>
    refine keeps_bind (keeps_bind keeps_get fun c => keeps_bind keeps_require fun _ => ?_) fun _ => ih
    cases setting with
    | noRfc7540Priorities value =>
      simp only
      cases c.initialNoRfc7540Priorities with
      | none => exact keeps_bind (modify_outline fun _ => rfl) fun _ => modify_outline fun _ => rfl
      | some initial => exact keeps_bind keeps_require fun _ => modify_outline fun _ => rfl
    | enableConnectProtocol value =>
      exact keeps_ite (keeps_bind (modify_outline fun _ => rfl) fun _ => modify_outline fun _ => rfl)
        (keeps_bind keeps_require fun _ => modify_outline fun _ => rfl)
    | _ => exact modify_outline fun _ => rfl

theorem updateStreamWindows_keeps (newSize : Nat) (sids : List Nat) :
    Keeps guards (updateStreamWindows newSize sids) := by
  induction sids with
  | nil => exact keeps_pure
  | cons sid sids ih =>
    refine keeps_bind keeps_get fun c => ?_
    cases c.stream? sid with
    | none => exact ih
    | some s => exact keeps_bind keeps_lift fun fc => keeps_bind (update_keeps fun _ => rfl) fun _ => ih

theorem handleSettings_outline (it : IterOrder) (f : SettingsFrame) :
    Keeps outline (handleSettings it f) := by
  refine keeps_ite ?_ (keeps_bind keeps_get fun c => ?_)
  · refine keeps_bind keeps_get fun c => keeps_bind keeps_require fun _ => ?_
    exact keeps_bind (fun _ => rfl) fun _ => keeps_bind (fun _ => rfl) fun _ =>
      outline_of_guards (pushEvent_keeps _)
  · refine keeps_bind (applySettings_outline f.settings) fun _ => keeps_bind ?_ fun _ => ?_
    · refine keeps_bind (fun _ => rfl) fun _ => keeps_bind (fun _ => rfl) fun _ => ?_
      refine keeps_bind keeps_get fun c => keeps_ite ?_ (modify_outline fun _ => rfl)
      exact keeps_bind (outline_of_guards (updateStreamWindows_keeps _ _)) fun _ =>
        modify_outline fun _ => rfl
    · refine keeps_bind (outline_of_guards (sendFrame_keeps _)) fun _ => ?_
      refine keeps_bind (outline_of_guards (flushAllStreamData_keeps it)) fun _ => ?_
      refine keeps_bind (outline_of_guards (pushEvent_keeps _)) fun _ => keeps_bind keeps_get fun c => ?_
      exact keeps_ite (keeps_bind (fun _ => rfl) fun _ => outline_of_guards (pushEvent_keeps _)) keeps_pure

/-- Only the peer's parameters touch what is remembered of them, and only they and GOAWAY the state. -/
theorem dispatchFrame_guards (it : IterOrder) {f : Frame} (hf : isInitialSettings f = false)
    (c : Connection) :
    ∃ state fields, (dispatchFrame it f c).2.guards = { c.guards with
      state := state
      headerFields := fields } := by
  have hkeeps : ∀ {m : Conn Unit}, Keeps guards m → ∃ state fields, (m c).2.guards = { c.guards with
      state := state
      headerFields := fields } := fun hm => ⟨c.state, c.headerFields, hm c⟩
  have hbears : ∀ {m : Conn Unit}, Keeps bearing m → ∃ state fields, (m c).2.guards = { c.guards with
      state := state
      headerFields := fields } := by
    intro m hm
    refine ⟨c.state, (m c).2.headerFields, ?_⟩
    exact congrArg (fun g : Guards => { g with headerFields := (m c).2.headerFields }) (hm c)
  cases f with
  | data f => exact hkeeps (handleData_keeps f)
  | headers f => exact hbears (handleHeaders_bearing f)
  | priority _ _ => exact hkeeps keeps_pure
  | rstStream sid errorCode => exact hkeeps (handleRstStream_keeps sid errorCode)
  | settings f =>
    have hack : f.ack = true := by simpa [isInitialSettings] using hf
    have hdone : Ensures handleSettingsAck c fun _ c' => ∃ state fields, c'.guards = { c.guards with
        state := state
        headerFields := fields } := by
      simp only [handleSettingsAck, ensures_bind, ensures_get, ensures_require, ensures_modify]
      exact ⟨fun _ => ⟨_, _, rfl⟩, fun _ => ⟨_, _, rfl⟩⟩
    simp only [dispatchFrame, handleSettings, if_pos hack]
    exact hdone
  | pushPromise _ => exact hkeeps keeps_throw
  | ping ack opaqueData => exact hkeeps (handlePing_keeps ack opaqueData)
  | goaway f => exact ⟨.goawayReceived, c.headerFields, rfl⟩
  | windowUpdate sid increment => exact hkeeps (handleWindowUpdate_keeps it sid increment)
  | continuation f => exact hbears (handleContinuation_bearing f)
  | priorityUpdate sid value => exact hkeeps (handlePriorityUpdate_keeps sid value)
  | unknown header payload => exact hkeeps (handleUnknown_keeps header.streamId)

theorem dispatchFrame_intake (it : IterOrder) (f : Frame) : Keeps intake (dispatchFrame it f) := by
  intro c
  by_cases hf : isInitialSettings f = true
  · cases f with
    | settings f => exact congrArg Prod.fst (handleSettings_outline it f c)
    | _ => cases hf
  · obtain ⟨state, fields, hguards⟩ := dispatchFrame_guards it (by simpa using hf) c
    exact congrArg (fun g : Guards => (g.frameDecoder, g.prefaceReceived, g.prefaceBuffer)) hguards

/-- Only the frames of a header block touch what is known of it. -/
theorem dispatchFrame_headerFields (it : IterOrder) {f : Frame} (hheaders : ∀ g, f ≠ .headers g)
    (hcontinuation : ∀ g, f ≠ .continuation g) : Keeps headerFields (dispatchFrame it f) := by
  have hkeeps : ∀ {m : Conn Unit}, Keeps guards m → Keeps headerFields m :=
    fun hm c => congrArg Guards.headerFields (hm c)
  cases f with
  | data f => exact hkeeps (handleData_keeps f)
  | headers f => exact absurd rfl (hheaders f)
  | priority _ _ => exact keeps_pure
  | rstStream sid errorCode => exact hkeeps (handleRstStream_keeps sid errorCode)
  | settings f => exact fun c => congrArg Prod.snd (handleSettings_outline it f c)
  | pushPromise _ => exact keeps_throw
  | ping ack opaqueData => exact hkeeps (handlePing_keeps ack opaqueData)
  | goaway f => exact fun c => rfl
  | windowUpdate sid increment => exact hkeeps (handleWindowUpdate_keeps it sid increment)
  | continuation f => exact absurd rfl (hcontinuation f)
  | priorityUpdate sid value => exact hkeeps (handlePriorityUpdate_keeps sid value)
  | unknown header payload => exact hkeeps (handleUnknown_keeps header.streamId)

theorem handleFrame_intake (it : IterOrder) (f : Frame) : Keeps intake (handleFrame it f) :=
  keeps_bind (fun _ => rfl) fun _ => keeps_bind keeps_get fun _ => keeps_bind keeps_require fun _ =>
    keeps_bind keeps_require fun _ => keeps_bind keeps_require fun _ => dispatchFrame_intake it f

/-- A frame that was handled was admitted: a server has the preface, the first frame is the peer's
SETTINGS, and nothing comes between the frames of a header block. -/
theorem handleFrame_ok {it : IterOrder} {f : Frame} {c c' : Connection}
    (h : handleFrame it f c = (.ok (), c')) :
    ¬ (c.state = .waitingPreface ∧ c.role = .server ∧ c.prefaceReceived = false) ∧
      (c.state = .waitingPreface → isInitialSettings f = true) ∧
      continues c.headerContinuationStream f = true ∧
      dispatchFrame it f (c.setCore (c.toCore.log (.received f))) = (.ok (), c') := by
  have hensures : Ensures (handleFrame it f) c fun r c'' => r = .ok () →
      ¬ (c.state = .waitingPreface ∧ c.role = .server ∧ c.prefaceReceived = false) ∧
      (c.state = .waitingPreface → isInitialSettings f = true) ∧
      continues c.headerContinuationStream f = true ∧
      dispatchFrame it f (c.setCore (c.toCore.log (.received f))) = (.ok (), c'') := by
    simp only [handleFrame, ensures_bind, ensures_update, ensures_get, ensures_require]
    refine ⟨fun hpreface => ⟨fun hfirst => ⟨fun hcont => ?_, fun _ h => by cases h⟩,
      fun _ h => by cases h⟩, fun _ h => by cases h⟩
    exact fun hr => ⟨hpreface, hfirst, hcont, Prod.ext hr rfl⟩
  rw [Ensures, h] at hensures
  exact hensures rfl

/-- So is one that is handled, whatever comes of it. -/
theorem handleFrame_admitted {it : IterOrder} {f : Frame} {c : Connection}
    (hpreface : ¬ (c.state = .waitingPreface ∧ c.role = .server ∧ c.prefaceReceived = false))
    (hfirst : c.state = .waitingPreface → isInitialSettings f = true)
    (hcont : continues c.headerContinuationStream f = true) :
    handleFrame it f c = dispatchFrame it f (c.setCore (c.toCore.log (.received f))) := by
  refine (bind_ok (m := update _) rfl _).trans ((bind_ok (m := get) rfl _).trans ?_)
  refine (bind_ok (require_ok _ hpreface) _).trans ?_
  exact (bind_ok (require_ok _ hfirst) _).trans (bind_ok (require_ok _ hcont) _)

/-! ## Calls once more -/

/-- The value that is returned makes no difference to the state. -/
theorem exec_value {α β : Type} {m : Conn α} {f : α → β} {c : Connection} :
    ((m >>= fun a => pure (f a) : Conn β) c).2 = (m c).2 := by
  change (Prog.bind m (fun a => Prog.pure (f a)) c).2 = _
  unfold Prog.bind
  obtain ⟨r, d⟩ := m c
  cases r <;> rfl

theorem unitValue_keeps {ν : Type} {view : Connection → ν} {m : Conn Unit} (h : Keeps view m) :
    Keeps view (Call.unitValue m) := keeps_bind h fun _ => keeps_pure

/-- The calls that leave all of it alone. -/
theorem exec_keeps {k : Call} (hfeed : ∀ data, k ≠ .feed data) (hpreface : k ≠ .markPrefaceReceived)
    (hprocess : ∀ it, k ≠ .process it)
    (hgoaway : ∀ errorCode debugData, k ≠ .sendGoaway errorCode debugData) :
    Keeps guards k.exec := by
  cases k with
  | initiate => exact unitValue_keeps initiate_keeps
  | feed data => exact absurd rfl (hfeed data)
  | markPrefaceReceived => exact absurd rfl hpreface
  | markPrefaceSent => exact unitValue_keeps fun _ => rfl
  | sendSettings => exact unitValue_keeps sendSettings_keeps
  | process it => exact absurd rfl (hprocess it)
  | pollEvent => exact fun _ => rfl
  | pollOutput => exact fun _ => rfl
  | startStream headers endStream =>
    exact keeps_bind (startStream_keeps headers endStream) fun _ => keeps_pure
  | sendResponse sid headers endStream => exact unitValue_keeps (sendResponse_keeps sid headers endStream)
  | sendTrailers sid headers => exact unitValue_keeps (sendTrailers_keeps sid headers)
  | sendData sid data endStream => exact unitValue_keeps (sendData_keeps sid data endStream)
  | resetStream sid errorCode => exact unitValue_keeps (resetStream_keeps sid errorCode)
  | sendPing opaqueData => exact unitValue_keeps (sendFrame_keeps _)
  | sendGoaway errorCode debugData => exact absurd rfl (hgoaway errorCode debugData)
  | sendWindowUpdate sid increment => exact unitValue_keeps (sendWindowUpdate_keeps sid increment)

/-- What all calls but `process` leave of it. -/
structure Spares (c d : Connection) : Prop where
  priorities : d.initialNoRfc7540Priorities = c.initialNoRfc7540Priorities
  connect : d.peerSentEnableConnectProtocol = c.peerSentEnableConnectProtocol
  maxFrameSize : d.frameDecoder.maxFrameSize = c.frameDecoder.maxFrameSize
  lastDecodedStreamId : d.frameDecoder.lastDecodedStreamId = c.frameDecoder.lastDecodedStreamId
  headerFields : d.headerFields = c.headerFields
  preface : d.prefaceReceived = false → c.prefaceReceived = false ∧
    (c.role = .server → d.frameDecoder = c.frameDecoder)

theorem spares_of_guards {c d : Connection} (h : d.guards = c.guards) : Spares c d where
  priorities := congrArg Guards.initialNoRfc7540Priorities h
  connect := congrArg Guards.peerSentEnableConnectProtocol h
  maxFrameSize := congrArg (·.frameDecoder.maxFrameSize) h
  lastDecodedStreamId := congrArg (·.frameDecoder.lastDecodedStreamId) h
  headerFields := congrArg Guards.headerFields h
  preface hd := ⟨(congrArg Guards.prefaceReceived h).symm.trans hd,
    fun _ => congrArg Guards.frameDecoder h⟩

theorem feed_spares (data : Bytes) (c : Connection) : Ensures (feed data) c fun _ d =>
    Spares c d ∧ d.state = c.state := by
  simp only [feed, ensures_bind, ensures_get, ensures_ite, ensures_modify, ensures_require, ensures_pure]
  refine ⟨fun _ => ⟨fun _ => ⟨fun _ => ⟨⟨rfl, rfl, rfl, rfl, rfl, fun h => ⟨h, fun _ => rfl⟩⟩, trivial⟩,
    fun _ => ?_⟩, fun _ => ⟨⟨rfl, rfl, rfl, rfl, rfl, fun h => ⟨h, fun _ => rfl⟩⟩, trivial⟩⟩, fun hrole => ?_⟩
  · exact ⟨⟨rfl, rfl, rfl, rfl, rfl, fun h => by cases h⟩, trivial⟩
  · exact ⟨⟨rfl, rfl, rfl, rfl, rfl, fun h => ⟨h, fun hserver => absurd ⟨hserver, h⟩ hrole⟩⟩, trivial⟩

theorem exec_spares {k : Call} (hprocess : ∀ it, k ≠ .process it) (c : Connection) :
    Spares c (k.exec c).2 ∧
      ((k.exec c).2.state = c.state ∨ ∃ errorCode debugData, k = .sendGoaway errorCode debugData) := by
  by_cases hfeed : ∃ data, k = .feed data
  · obtain ⟨data, rfl⟩ := hfeed
    have hdone : Ensures (Call.feed data).exec c fun _ d => Spares c d ∧ d.state = c.state := by
      simp only [Call.exec, ensures_bind]
      apply ensures_mono (feed_spares data c)
      rintro r d hd
      cases r <;> exact hd
    exact ⟨hdone.1, .inl hdone.2⟩
  by_cases hpreface : k = .markPrefaceReceived
  · subst hpreface
    exact ⟨⟨rfl, rfl, rfl, rfl, rfl, fun h => by cases h⟩, .inl rfl⟩
  by_cases hgoaway : ∃ errorCode debugData, k = .sendGoaway errorCode debugData
  · obtain ⟨errorCode, debugData, rfl⟩ := hgoaway
    exact ⟨⟨rfl, rfl, rfl, rfl, rfl, fun h => ⟨h, fun _ => rfl⟩⟩, .inr ⟨errorCode, debugData, rfl⟩⟩
  · have hguards := exec_keeps (fun data h => hfeed ⟨data, h⟩) hpreface hprocess
      (fun errorCode debugData h => hgoaway ⟨errorCode, debugData, h⟩) c
    exact ⟨spares_of_guards hguards, .inl (congrArg Guards.state hguards)⟩

end Connection

end Http2
