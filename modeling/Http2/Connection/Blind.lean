import Http2.Connection.Fragments

/-! The frame handlers read neither the octets that are still to be decoded nor, but for the order in
which they go through a map, what has happened before. -/
namespace Http2

open Hpack Lib Lib.Prog

/-- A way to make out less of the decoder and of what has happened. -/
structure Blur where
  decoder : FrameDecoder → FrameDecoder
  trace : List Item → List Item
  decoder_decoder : ∀ d, decoder (decoder d) = decoder d
  trace_trace : ∀ items, trace (trace items) = trace items
  trace_cons : ∀ i items, trace (i :: trace items) = trace (i :: items)

namespace Connection

/-- The connection with another decoder and another past. -/
def masked (c : Connection) (d : FrameDecoder) (items : List Item) : Connection :=
  { c with
    toCore := { c.toCore with trace := items }
    frameDecoder := d }

end Connection

/-- What is left to see of a connection. -/
def Blur.view (b : Blur) (c : Connection) : Connection :=
  c.masked (b.decoder c.frameDecoder) (b.trace c.trace)

namespace Connection

variable {b : Blur}

/-! ## Operations -/

theorem blind_modify {g : Connection → Connection} (h : ∀ c d t, g (c.masked d t) = (g c).masked d t) :
    Respects b.view (modify g : Conn Unit) := by
  apply respects_modify
  intro c
  have hsame : g c = (g c).masked c.frameDecoder c.trace := h c c.frameDecoder c.trace
  have hview : g (b.view c) = (g c).masked (b.decoder c.frameDecoder) (b.trace c.trace) := h c _ _
  rw [hview, hsame]
  change (g c).masked (b.decoder c.frameDecoder) (b.trace c.trace) =
    (g c).masked (b.decoder (b.decoder c.frameDecoder)) (b.trace (b.trace c.trace))
  rw [b.decoder_decoder, b.trace_trace]

theorem blind_update {g : Core → Core} (h : ∀ c t, g { c with trace := t } = { g c with trace := t }) :
    Respects b.view (update g) := by
  apply blind_modify
  intro c d t
  change Connection.setCore (c.masked d t) (g { c.toCore with trace := t }) = _
  rw [h]
  rfl

theorem blind_log (i : Item) : Respects b.view (update (·.log i)) := by
  apply respects_modify
  intro c
  simp [Blur.view, masked, setCore, Core.log, b.trace_cons, b.decoder_decoder]

theorem blind_pushEvent (e : Event) : Respects b.view (pushEvent e) := by
  apply respects_modify
  intro c
  simp [Blur.view, masked, addEvent, Core.log, b.trace_cons, b.decoder_decoder]

theorem blind_sendFrame (f : Frame) : Respects b.view (sendFrame f) := by
  unfold sendFrame
  split
  · exact respects_throw
  · apply respects_modify
    intro c
    simp [Blur.view, masked, addOutput, Core.log, b.trace_cons, b.decoder_decoder]

theorem blind_closeStream (sid : Nat) : Respects b.view (closeStream sid) := by
  apply respects_bind (blind_pushEvent _)
  intro _
  exact blind_update fun _ _ => rfl

theorem blind_closeIf (sid : Nat) (closed : Bool) : Respects b.view (closeIf sid closed) := by
  unfold closeIf
  split
  · exact blind_closeStream sid
  · exact respects_pure

theorem blind_resetStreamInternal (sid : Nat) (errorCode : ErrorCode) (consumed : Nat) :
    Respects b.view (resetStreamInternal sid errorCode consumed) := by
  apply respects_bind respects_require
  intro _
  refine respects_read (fun _ => rfl) fun c => ?_
  apply respects_bind respects_require
  intro _
  apply respects_bind (blind_sendFrame _)
  intro _
  split
  · apply respects_bind (blind_pushEvent _)
    intro _
    exact blind_update fun _ _ => rfl
  · exact respects_pure

theorem blind_ensureStream (sid : Nat) : Respects b.view (ensureStream sid) := by
  refine respects_read (fun _ => rfl) fun c => ?_
  split
  · exact respects_pure
  · apply respects_bind
    · apply respects_modify
      intro c
      simp [Blur.view, masked, setCore, Core.openStream, Core.log, Core.putStream, b.trace_cons,
        b.decoder_decoder]
    · exact fun _ => respects_pure


theorem blind_tryRemoveClosedStream (sid : Nat) : Respects b.view (tryRemoveClosedStream sid) := by
  refine respects_read (fun _ => rfl) fun c => ?_
  split
  · split
    · exact blind_closeStream sid
    · exact respects_pure
  · exact respects_pure

theorem blind_flushTurn (sid : Nat) : Respects b.view (flushTurn sid) := by
  refine respects_read (fun _ => rfl) fun c => ?_
  cases c.stream? sid with
  | none => exact respects_pure
  | some s =>
    apply respects_ite respects_pure
    apply respects_ite respects_pure
    apply respects_bind (blind_update fun _ _ => rfl)
    intro _
    apply respects_bind respects_lift
    intro fc
    apply respects_bind (blind_update fun _ _ => rfl)
    intro _
    apply respects_bind respects_lift
    intro fc'
    apply respects_bind (blind_update fun _ _ => rfl)
    intro _
    split
    · apply respects_bind respects_lift
      intro state
      apply respects_bind (blind_update fun _ _ => rfl)
      intro _
      apply respects_bind (blind_sendFrame _)
      exact fun _ => respects_pure
    · apply respects_bind (blind_sendFrame _)
      exact fun _ => respects_pure

theorem blind_flushLoop (sid fuel : Nat) : Respects b.view (flushLoop sid fuel) := by
  induction fuel with
  | zero => exact respects_pure
  | succ fuel ih =>
    apply respects_bind (blind_flushTurn sid)
    intro turn
    split
    · exact ih
    · exact respects_pure

theorem blind_flushEnd (sid : Nat) : Respects b.view (flushEnd sid) := by
  refine respects_read (fun _ => rfl) fun c => ?_
  cases c.stream? sid with
  | none => exact respects_pure
  | some s =>
    apply respects_ite ?_ respects_pure
    apply respects_bind (blind_update fun _ _ => rfl)
    intro _
    apply respects_bind respects_lift
    intro state
    apply respects_bind (blind_update fun _ _ => rfl)
    exact fun _ => blind_sendFrame _

theorem blind_flushAndRemove (sid : Nat) : Respects b.view (flushAndRemove sid) := by
  apply respects_bind
  · refine respects_read (fun _ => rfl) fun c => ?_
    apply respects_bind (blind_flushLoop sid _)
    intro turn
    split
    · exact blind_flushEnd sid
    · exact respects_pure
  · exact fun _ => blind_tryRemoveClosedStream sid

theorem blind_flushEach (sids : List Nat) : Respects b.view (flushEach sids) := by
  induction sids with
  | nil => exact respects_pure
  | cons sid sids ih => exact respects_bind (blind_flushAndRemove sid) fun _ => ih

/-! ## Header blocks -/

theorem blind_resetHeadersValidationError (sid : Nat) : Respects b.view (resetHeadersValidationError sid) :=
  respects_bind (blind_ensureStream sid) fun _ => blind_resetStreamInternal sid _ 0

theorem blind_resetRefusedConcurrentStream (sid : Nat) :
    Respects b.view (resetRefusedConcurrentStream sid) := by
  apply respects_bind (blind_ensureStream sid)
  intro _
  apply respects_bind (blind_resetStreamInternal sid _ 0)
  intro _
  exact blind_update fun _ _ => rfl

theorem blind_receiveTrailers (sid : Nat) (headers : List HeaderField) (endStream : Bool) :
    Respects b.view (receiveTrailers sid headers endStream) := by
  apply respects_bind (blind_ensureStream sid)
  intro s
  split
  · exact blind_resetStreamInternal sid _ 0
  · apply respects_bind (blind_update fun _ _ => rfl)
    intro _
    apply respects_bind (blind_pushEvent _)
    exact fun _ => blind_closeIf sid _

theorem blind_receiveHeaders (sid : Nat) (headers : List HeaderField) (endStream : Bool)
    (contentLength : Option Nat) : Respects b.view (receiveHeaders sid headers endStream contentLength) := by
  apply respects_bind (blind_ensureStream sid)
  intro s
  refine respects_read (fun _ => rfl) fun c => ?_
  split
  · exact blind_resetStreamInternal sid _ 0
  · apply respects_ite (blind_resetStreamInternal sid _ 0)
    apply respects_ite (blind_resetStreamInternal sid _ 0)
    apply respects_bind (blind_update fun _ _ => rfl)
    intro _
    apply respects_bind (blind_pushEvent _)
    exact fun _ => blind_closeIf sid _

theorem blind_receiveMessage (sid : Nat) (headers : List HeaderField) (endStream : Bool) :
    Respects b.view (receiveMessage sid headers endStream) := by
  unfold receiveMessage
  split
  · exact blind_resetHeadersValidationError sid
  · exact blind_receiveHeaders sid headers endStream _

theorem blind_receiveRequest (sid : Nat) (headers : List HeaderField) (endStream : Bool) :
    Respects b.view (receiveRequest sid headers endStream) := by
  refine respects_read (fun _ => rfl) fun c => ?_
  split
  · exact blind_resetHeadersValidationError sid
  · apply respects_ite (blind_resetHeadersValidationError sid)
    split
    · exact blind_receiveMessage sid headers endStream
    · apply respects_bind (blind_ensureStream sid)
      intro s
      apply respects_bind (blind_update fun _ _ => rfl)
      exact fun _ => blind_receiveMessage sid headers endStream

theorem blind_receiveResponse (sid : Nat) (headers : List HeaderField) (endStream : Bool) :
    Respects b.view (receiveResponse sid headers endStream) := by
  refine respects_read (fun _ => rfl) fun c => ?_
  split
  · exact blind_resetHeadersValidationError sid
  · split
    · exact blind_receiveMessage sid headers endStream
    · apply respects_bind (blind_update fun _ _ => rfl)
      exact fun _ => blind_receiveMessage sid headers endStream

theorem blind_processHeaders (sid : Nat) (headers : List HeaderField) (endStream : Bool) :
    Respects b.view (processHeaders sid headers endStream) := by
  refine respects_read (fun _ => rfl) fun c => ?_
  apply respects_ite (blind_resetHeadersValidationError sid)
  apply respects_ite (blind_resetHeadersValidationError sid)
  apply respects_ite
  · split
    · exact blind_resetHeadersValidationError sid
    · exact respects_ite (blind_resetHeadersValidationError sid) (blind_receiveTrailers sid headers endStream)
  · split
    · exact blind_receiveRequest sid headers endStream
    · exact blind_receiveResponse sid headers endStream

theorem blind_decodeBlock (sid : Nat) (fragment : Bytes) : Respects b.view (decodeBlock sid fragment) := by
  refine respects_read (fun _ => rfl) fun c => ?_
  apply respects_bind (blind_update fun _ _ => rfl)
  intro _
  split
  · exact respects_throw
  · apply respects_bind (blind_log _)
    exact fun _ => respects_pure

theorem blind_finishBlock (sid : Nat) (headers : List HeaderField) (endStream ignored : Bool) :
    Respects b.view (finishBlock sid headers endStream ignored) := by
  refine respects_read (fun _ => rfl) fun c => ?_
  apply respects_ite (blind_modify fun _ _ _ => rfl)
  apply respects_ite
  · apply respects_bind (blind_modify fun _ _ _ => rfl)
    exact fun _ => blind_resetRefusedConcurrentStream sid
  · apply respects_ite
    · apply respects_bind (blind_modify fun _ _ _ => rfl)
      exact fun _ => blind_resetStreamInternal sid _ 0
    · apply respects_bind (blind_processHeaders sid headers endStream)
      intro _
      exact blind_update fun _ _ => rfl


theorem blind_checkHeaderBlockFragmentSize : Respects b.view checkHeaderBlockFragmentSize :=
  respects_read (fun _ => rfl) fun _ => respects_require

theorem blind_collectHeaders (f : HeadersFrame) (previouslyClosed : Bool) :
    Respects b.view (collectHeaders f previouslyClosed) := by
  apply respects_bind (blind_update fun _ _ => rfl)
  intro _
  apply respects_ite
  · apply respects_bind (blind_decodeBlock _ _)
    exact fun _ => blind_finishBlock _ _ _ _
  · apply respects_bind (blind_update fun _ _ => rfl)
    exact fun _ => blind_checkHeaderBlockFragmentSize

theorem blind_handleHeaders (f : HeadersFrame) : Respects b.view (handleHeaders f) := by
  apply respects_bind respects_require
  intro _
  refine respects_read (fun _ => rfl) fun c => ?_
  apply respects_bind respects_require
  intro _
  apply respects_ite (blind_collectHeaders f true)
  apply respects_bind respects_require
  intro _
  apply respects_bind (blind_modify fun _ _ _ => rfl)
  exact fun _ => blind_collectHeaders f false

theorem blind_handleContinuation (f : ContinuationFrame) : Respects b.view (handleContinuation f) := by
  refine respects_read (fun _ => rfl) fun c => ?_
  split
  · exact respects_throw
  · apply respects_bind respects_require
    intro _
    apply respects_bind (blind_update fun _ _ => rfl)
    intro _
    apply respects_bind blind_checkHeaderBlockFragmentSize
    intro _
    apply respects_ite ?_ respects_pure
    apply respects_bind (blind_update fun _ _ => rfl)
    intro _
    apply respects_bind (blind_decodeBlock _ _)
    intro _
    apply respects_bind (blind_update fun _ _ => rfl)
    exact fun _ => blind_finishBlock _ _ _ _

/-! ## Other frames -/

theorem blind_checkNotIdleStream (sid : Nat) (frameType : String) :
    Respects b.view (checkNotIdleStream sid frameType) :=
  respects_read (fun _ => rfl) fun _ => respects_require

theorem blind_discardData (sid size : Nat) : Respects b.view (discardData sid size) :=
  respects_ite (blind_pushEvent _) respects_pure

theorem blind_receiveData (f : DataFrame) (s : Stream) : Respects b.view (receiveData f s) := by
  unfold receiveData
  split
  · exact blind_resetStreamInternal _ _ _
  · simp only
    split
    · exact blind_resetStreamInternal _ _ _
    · apply respects_ite (blind_resetStreamInternal _ _ _)
      apply respects_ite (blind_resetStreamInternal _ _ _)
      apply respects_bind (blind_update fun _ _ => rfl)
      intro _
      apply respects_bind (blind_pushEvent _)
      exact fun _ => blind_closeIf _ _

theorem blind_handleData (f : DataFrame) : Respects b.view (handleData f) := by
  apply respects_bind (blind_checkNotIdleStream _ _)
  intro _
  refine respects_read (fun _ => rfl) fun c => ?_
  apply respects_bind respects_lift
  intro fc
  apply respects_bind (blind_update fun _ _ => rfl)
  intro _
  split
  · exact blind_discardData _ _
  · exact respects_ite (blind_discardData _ _) (blind_receiveData f _)

theorem blind_handleRstStream (sid errorCode : Nat) : Respects b.view (handleRstStream sid errorCode) := by
  apply respects_bind (blind_checkNotIdleStream _ _)
  intro _
  refine respects_read (fun _ => rfl) fun c => ?_
  split
  · exact respects_pure
  · apply respects_bind (blind_pushEvent _)
    intro _
    exact blind_update fun _ _ => rfl

theorem blind_applySetting (setting : Setting) : Respects b.view (applySetting setting) := by
  refine respects_read (fun _ => rfl) fun c => ?_
  apply respects_bind respects_require
  intro _
  have happly :
      Respects b.view (update fun c => { c with remoteSettings := c.remoteSettings.apply setting }) :=
    blind_update fun _ _ => rfl
  split
  · split
    · exact respects_bind respects_require fun _ => happly
    · exact respects_bind (blind_modify fun _ _ _ => rfl) fun _ => happly
  · split
    · exact respects_bind (blind_modify fun _ _ _ => rfl) fun _ => happly
    · exact respects_bind respects_require fun _ => happly
  · exact happly

theorem blind_applySettings (settings : List Setting) : Respects b.view (applySettings settings) := by
  induction settings with
  | nil => exact respects_pure
  | cons setting settings ih => exact respects_bind (blind_applySetting setting) fun _ => ih

theorem blind_updateStreamWindows (newSize : Nat) (sids : List Nat) :
    Respects b.view (updateStreamWindows newSize sids) := by
  induction sids with
  | nil => exact respects_pure
  | cons sid sids ih =>
    refine respects_read (fun _ => rfl) fun c => ?_
    split
    · exact ih
    · apply respects_bind respects_lift
      intro fc
      apply respects_bind (blind_update fun _ _ => rfl)
      exact fun _ => ih

theorem blind_handleSettingsAck : Respects b.view handleSettingsAck := by
  refine respects_read (fun _ => rfl) fun c => ?_
  apply respects_bind respects_require
  intro _
  apply respects_bind (blind_modify fun _ _ _ => rfl)
  intro _
  apply respects_bind (blind_update fun _ _ => rfl)
  exact fun _ => blind_pushEvent _

theorem blind_handlePing (ack : Bool) (opaqueData : Bytes) : Respects b.view (handlePing ack opaqueData) := by
  unfold handlePing
  split
  · exact blind_pushEvent _
  · exact respects_bind (blind_sendFrame _) fun _ => blind_pushEvent _

theorem blind_handleGoaway (f : GoawayFrame) : Respects b.view (handleGoaway f) := by
  apply respects_bind (blind_update fun _ _ => rfl)
  exact fun _ => blind_pushEvent _

theorem blind_handleStreamWindowUpdate (sid increment : Nat) :
    Respects b.view (handleStreamWindowUpdate sid increment) := by
  apply respects_bind (blind_checkNotIdleStream _ _)
  intro _
  refine respects_read (fun _ => rfl) fun c => ?_
  split
  · exact blind_pushEvent _
  · apply respects_ite respects_pure
    split
    · exact blind_resetStreamInternal _ _ _
    · apply respects_bind (blind_update fun _ _ => rfl)
      intro _
      apply respects_bind (blind_flushAndRemove sid)
      exact fun _ => blind_pushEvent _

theorem blind_handlePriorityUpdate (sid : Nat) (value : Bytes) :
    Respects b.view (handlePriorityUpdate sid value) := by
  refine respects_read (fun _ => rfl) fun c => ?_
  apply respects_bind respects_require
  intro _
  apply respects_bind respects_require
  exact fun _ => blind_pushEvent _

theorem blind_handleUnknown (sid : Nat) : Respects b.view (handleUnknown sid) := by
  refine respects_read (fun _ => rfl) fun c => ?_
  split
  · exact respects_ite (blind_resetStreamInternal _ _ _) respects_pure
  · exact respects_pure

/-! ## What goes through the map

The order is drawn from the number of things that have happened. -/

section

variable (hlength : ∀ items, (b.trace items).length = items.length) (it : IterOrder)

include hlength

theorem blind_flushAllStreamData : Respects b.view (flushAllStreamData it) := by
  refine respects_read (fun c => ?_) fun c => blind_flushEach _
  have hsame : (b.view c).trace.length = c.trace.length := hlength c.trace
  rw [hsame]
  rfl

theorem blind_settleSettings (old : Settings) : Respects b.view (settleSettings it old) := by
  apply respects_bind (blind_modify fun _ _ _ => rfl)
  intro _
  apply respects_bind (blind_update fun _ _ => rfl)
  intro _
  refine respects_read (fun c => ?_) fun c => ?_
  · have hsame : (b.view c).trace.length = c.trace.length := hlength c.trace
    rw [hsame]
    rfl
  · split
    · apply respects_bind (blind_updateStreamWindows _ _)
      intro _
      exact blind_update fun _ _ => rfl
    · exact blind_update fun _ _ => rfl

theorem blind_handleSettings (f : SettingsFrame) : Respects b.view (handleSettings it f) := by
  apply respects_ite blind_handleSettingsAck
  refine respects_read (fun _ => rfl) fun c => ?_
  apply respects_bind (blind_applySettings _)
  intro _
  apply respects_bind (blind_settleSettings hlength it _)
  intro _
  apply respects_bind (blind_sendFrame _)
  intro _
  apply respects_bind (blind_flushAllStreamData hlength it)
  intro _
  apply respects_bind (blind_pushEvent _)
  intro _
  refine respects_read (fun _ => rfl) fun c' => ?_
  apply respects_ite ?_ respects_pure
  apply respects_bind (blind_update fun _ _ => rfl)
  exact fun _ => blind_pushEvent _

theorem blind_handleWindowUpdate (sid increment : Nat) :
    Respects b.view (handleWindowUpdate it sid increment) := by
  apply respects_ite ?_ (blind_handleStreamWindowUpdate sid increment)
  refine respects_read (fun _ => rfl) fun c => ?_
  apply respects_bind respects_lift
  intro fc
  apply respects_bind (blind_update fun _ _ => rfl)
  intro _
  apply respects_bind (blind_flushAllStreamData hlength it)
  exact fun _ => blind_pushEvent _

theorem blind_dispatchFrame (f : Frame) : Respects b.view (dispatchFrame it f) := by
  cases f with
  | data f => exact blind_handleData f
  | headers f => exact blind_handleHeaders f
  | priority _ _ => exact respects_pure
  | rstStream sid errorCode => exact blind_handleRstStream sid errorCode
  | settings f => exact blind_handleSettings hlength it f
  | pushPromise _ => exact respects_throw
  | ping ack opaqueData => exact blind_handlePing ack opaqueData
  | goaway f => exact blind_handleGoaway f
  | windowUpdate sid increment => exact blind_handleWindowUpdate hlength it sid increment
  | continuation f => exact blind_handleContinuation f
  | priorityUpdate sid value => exact blind_handlePriorityUpdate sid value
  | unknown header payload => exact blind_handleUnknown header.streamId

theorem blind_handleFrame (f : Frame) : Respects b.view (handleFrame it f) := by
  apply respects_bind (blind_log _)
  intro _
  refine respects_read (fun _ => rfl) fun c => ?_
  apply respects_bind respects_require
  intro _
  apply respects_bind respects_require
  intro _
  apply respects_bind respects_require
  exact fun _ => blind_dispatchFrame hlength it f

end

/-- A refusal is about the stream of the last frame that was decoded. -/
theorem blind_rejectFrame (e : Error)
    (hlast : ∀ d, (b.decoder d).lastDecodedStreamId = d.lastDecodedStreamId) :
    Respects b.view (rejectFrame e) := by
  refine respects_read (fun c => ?_) fun c => ?_
  · have hsame : (b.view c).frameDecoder.lastDecodedStreamId = c.frameDecoder.lastDecodedStreamId := hlast _
    rw [hsame]
    rfl
  · apply respects_ite ?_ respects_throw
    split
    · apply respects_bind respects_require
      intro _
      apply respects_bind (blind_log _)
      exact fun _ => blind_resetStreamInternal _ _ 0
    · exact respects_pure

end Connection

end Http2
