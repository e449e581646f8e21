import Http2.Connection.Blocks

/-! Every call refines the transitions, and so does every run. A call that fails changes nothing,
`feed`, `process` and the calls that send the first SETTINGS apart. -/
namespace Http2

open Hpack Lib Lib.Prog Connection

/-! ## Frames -/

section Frames

variable {T : Terms} {c : Connection}

theorem dispatchFrame_follows (it : IterOrder) (f : Frame) (ht : Tidy c.toCore)
    (hl : T.Meets c.toCore (.frame f)) (hcont : continues c.headerContinuationStream f = true) :
    Ensures (dispatchFrame it f) (c.setCore (c.toCore.log (.received f))) (Follows T c.toCore) := by
  cases f with
  | data f => exact handleData_follows f ht hl
  | headers f =>
    refine handleHeaders_follows f ht hl ?_
    cases h : c.headerContinuationStream with
    | none => rfl
    | some sid => simp [continues, h] at hcont
  | priority sid fields =>
    have hreceive := Calm.receive (c := c.toCore) (.priority sid fields) trivial
    exact .single hreceive hl
  | rstStream sid errorCode => exact handleRstStream_follows sid errorCode hl
  | settings f => exact handleSettings_follows it f ht hl
  | pushPromise sid => exact broken_of_fault hl (.refused _ rfl)
  | ping ack opaqueData => exact handlePing_follows ack opaqueData hl
  | goaway f => exact handleGoaway_follows f hl
  | windowUpdate sid increment => exact handleWindowUpdate_follows it sid increment ht hl
  | continuation f => exact handleContinuation_follows f ht hl
  | priorityUpdate sid value => exact handlePriorityUpdate_follows sid value hl
  | unknown header payload => exact handleUnknown_follows header payload hl

theorem handleFrame_follows (it : IterOrder) (f : Frame) (ht : Tidy c.toCore)
    (hl : T.Meets c.toCore (.frame f)) : Ensures (handleFrame it f) c (Follows T c.toCore) := by
  have hrefused : ∀ e : Error, e.plain = true → Broken T c.toCore e (c.toCore.log (.received f)) :=
    fun _ he => broken_of_fault hl (.refused _ he)
  simp only [handleFrame, ensures_bind, ensures_update, ensures_get, ensures_require, setCore_toCore,
    Core.log_headerContinuationStream]
  refine ⟨fun _ => ⟨fun _ => ⟨fun hcont => ?_, fun _ => hrefused _ rfl⟩, fun _ => hrefused _ rfl⟩,
    fun _ => hrefused _ rfl⟩
  exact dispatchFrame_follows it f ht hl hcont

theorem idle_zero {c : Core} (ht : Tidy c) : c.isIdleStream 0 = true := by
  have hgone : c.stream? 0 = none := by
    cases hlive : c.stream? 0 with
    | none => rfl
    | some s => exact absurd rfl (ht.streams 0 s hlive).1
  unfold Core.isIdleStream
  rw [hgone, ht.closed]
  rfl

/-- RST_STREAM for a stream that was used before, live or gone. -/
theorem ensures_resetStream {Q : Except Error Unit → Connection → Prop} {sid : Nat} {code : ErrorCode}
    (ht : Tidy c.toCore)
    (hlive : ∀ s c', c.stream? sid = some s → c'.toCore = c.toCore.resetWith sid code 0 →
      Q (.ok ()) c')
    (hgone : ∀ c', c.stream? sid = none → c.isIdleStream sid = false →
      c'.toCore = c.toCore.log (.sent (.rstStream sid code.asU32)) → Q (.ok ()) c')
    (hidle : ∀ e, c.isIdleStream sid = true → Q (.error e) c) :
    Ensures (resetStream sid code) c Q := by
  unfold resetStream
  by_cases hused : c.isIdleStream sid = false
  · have hsid : sid ≠ 0 := by
      rintro rfl
      cases hused.symm.trans (idle_zero ht)
    cases h : c.stream? sid with
    | none => exact ensures_resetGone hsid h hused fun c' hc' => hgone c' h hused hc'
    | some s => exact ensures_reset hsid h fun c' hc' => hlive s c' h hc'
  · have hidle' : c.isIdleStream sid = true := by simpa using hused
    simp only [resetStreamInternal, ensures_bind, ensures_get, ensures_require]
    exact ⟨fun _ => ⟨fun h => absurd h hused, fun _ => hidle _ hidle'⟩, fun _ => hidle _ hidle'⟩

theorem plain_of_decoder {e : Error} (h : e.ofDecoder = true) : e.plain = true := by
  obtain ⟨kind, reason⟩ := e
  cases kind with
  | connectionError code => cases code <;> cases reason <;> first | rfl | cases h
  | streamError code => cases code <;> first | rfl | cases h
  | hpackError => rfl

/-- The code of a stream error is one that a connection error of the same code may carry. -/
theorem plain_of_promoted {e : Error} {code : ErrorCode} (h : e.ofDecoder = true)
    (hstream : e.isStreamError = true) (hcode : e.errorCode = some code) :
    (∀ reason, (Error.connectionError code reason).plain = true) ∧ code ≠ .flowControlError := by
  obtain ⟨kind, reason⟩ := e
  cases kind with
  | connectionError code => cases hstream
  | streamError code' =>
    obtain rfl : code' = code := Option.some.inj hcode
    cases code' <;> first | exact ⟨fun _ => rfl, by simp⟩ | cases h
  | hpackError => cases hstream

theorem broken_of_decoder {c : Core} {e : Error} (he : e.plain = true) : Broken T c e c :=
  ⟨c, .inner, .refl, trivial, .decoder he⟩

theorem rejectFrame_follows {e : Error} (ht : Tidy c.toCore)
    (hl : e.isStreamError = true → ∀ sid ∈ c.frameDecoder.lastDecodedStreamId,
      T.Meets c.toCore (.refusal sid)) (he : e.ofDecoder = true) :
    Ensures (rejectFrame e) c (Follows T c.toCore) := by
  simp only [rejectFrame, ensures_bind, ensures_get, ensures_ite]
  refine ⟨fun hstream => ?_, fun _ => broken_of_decoder (plain_of_decoder he)⟩
  cases hlast : c.frameDecoder.lastDecodedStreamId with
  | none => exact .refl
  | some sid =>
    have hsid := hl hstream sid hlast
    cases hcase : e.errorCode with
    | none => exact .refl
    | some code =>
      simp only [ensures_bind, ensures_require, ensures_update]
      refine ⟨fun hidle => ?_, fun _ => ?_⟩
      · have ht' : Tidy (c.toCore.log (.rejected sid)) :=
          ht.congr rfl ⟨rfl, rfl, rfl, rfl, Nat.le_refl _⟩
        apply ensures_resetStream ht'
        · intro s c' hlive hc'
          simp only [Follows]
          rw [hc']
          exact .single (.reject sid code (plain_of_promoted he hstream hcase).2 hlive) hsid
        · intro c' hgone _ hc'
          simp only [Follows]
          rw [hc']
          exact .single (.rejectGone sid code hgone hidle) hsid
        · intro e hbusy
          cases hidle.symm.trans hbusy
      · exact broken_of_decoder ((plain_of_promoted he hstream hcase).1 _)

theorem processLoop_follows (it : IterOrder) (fuel : Nat) (ht : Tidy c.toCore)
    (hheeds : c.Heeds T it fuel) : Ensures (processLoop it fuel) c (Follows T c.toCore) := by
  induction fuel generalizing c with
  | zero => exact .refl
  | succ fuel ih =>
    simp only [processLoop, decodeNext, ensures_bind, ensures_get, ensures_modify, ensures_pure]
    simp only [Connection.Heeds] at hheeds
    -- One turn goes on as the handler of the frame did.
    have hturn : ∀ {m : Conn Unit} {c₁ : Connection}, Ensures m c₁ (Follows T c.toCore) →
        (Ensures m c₁ fun r c' => r = .ok () → c'.Heeds T it fuel) →
        Ensures (m >>= fun _ => processLoop it fuel) c₁ (Follows T c.toCore) := by
      intro m c₁ hm hnext
      rw [ensures_bind]
      apply ensures_mono (Q := fun r c' => Follows T c.toCore r c' ∧ (r = .ok () → c'.Heeds T it fuel))
        ⟨hm, hnext⟩
      rintro r c' ⟨hr, hheeds'⟩
      cases r with
      | ok u => exact follows_trans hr (ih (chain_tidy ht hr) (hheeds' rfl))
      | error e => exact hr
    cases hdecode : c.frameDecoder.decode.1 with
    | error e =>
      rw [hdecode] at hheeds
      refine hturn ?_ hheeds.2
      exact rejectFrame_follows ht hheeds.1 (c.frameDecoder.decode_complains e hdecode)
    | ok f =>
      cases f with
      | none => exact .refl
      | some f =>
        rw [hdecode] at hheeds
        refine hturn ?_ hheeds.2
        exact handleFrame_follows it f ht hheeds.1

theorem process_follows (it : IterOrder) (ht : Tidy c.toCore)
    (hheeds : c.Heeds T it (c.frameDecoder.buf.length + 2)) :
    Ensures (process it) c (Follows T c.toCore) := by
  simp only [process, ensures_bind, ensures_get]
  exact processLoop_follows it _ ht hheeds

theorem feed_follows (data : Bytes) : Ensures (feed data) c (Follows T c.toCore) := by
  have hstay : Chain T c.toCore c.toCore := .refl
  simp only [feed, ensures_bind, ensures_get, ensures_ite, ensures_modify, ensures_require,
    ensures_pure]
  refine ⟨fun _ => ⟨fun _ => ⟨fun _ => hstay, fun _ => hstay⟩, fun _ => ?_⟩, fun _ => hstay⟩
  exact broken_of_decoder rfl

end Frames

/-! ## Header blocks of our own -/

/-- A call that fails leaves the whole connection as it was. -/
def Atomic {α : Type} (c : Connection) (Q : α → Connection → Prop) (r : Except Error α)
    (c' : Connection) : Prop :=
  match r with
  | .ok v => Q v c'
  | .error _ => c' = c

theorem continuationFrames_encode {sid maxFrameSize fuel : Nat} {remaining : Bytes} :
    ∀ f ∈ continuationFrames sid maxFrameSize fuel remaining, ∃ bytes, f.encode = .ok bytes := by
  induction fuel generalizing remaining with
  | zero => simp [continuationFrames]
  | succ fuel ih =>
    unfold continuationFrames
    split
    · simp
    · intro f hf
      obtain rfl | hf := List.mem_cons.1 hf
      · exact ⟨_, rfl⟩
      · exact ih f hf

theorem blockFrames_encode {sid : Nat} {endStream : Bool} {maxFrameSize : Nat} {block : Bytes} :
    ∀ f ∈ blockFrames sid endStream maxFrameSize block, ∃ bytes, f.encode = .ok bytes := by
  intro f hf
  unfold blockFrames at hf
  split at hf
  · obtain rfl := List.mem_singleton.1 hf
    exact ⟨_, rfl⟩
  · obtain rfl | hf := List.mem_cons.1 hf
    · exact ⟨_, rfl⟩
    · exact continuationFrames_encode f hf

theorem sendFrames_spec {fs : List Frame} (hfs : ∀ f ∈ fs, ∃ bytes, f.encode = .ok bytes)
    (c : Connection) :
    Ensures (sendFrames fs) c fun r c' => r = .ok () ∧ c'.toCore = c.toCore.logSent fs := by
  induction fs generalizing c with
  | nil => exact ⟨rfl, rfl⟩
  | cons f fs ih =>
    obtain ⟨bytes, hbytes⟩ := hfs f (List.mem_cons_self ..)
    simp only [sendFrames, ensures_bind]
    rw [ensures_sendFrame hbytes]
    exact ih (fun g hg => hfs g (List.mem_cons_of_mem _ hg)) _

theorem encodeAndSend_spec (sid : Nat) (headers : List HeaderField) (endStream : Bool)
    (c : Connection) :
    Ensures (encodeAndSend sid headers endStream) c fun r c' =>
      r = .ok () ∧ c'.toCore = c.toCore.sendBlock sid headers endStream := by
  simp only [encodeAndSend, sendHeaderBlock, ensures_bind, ensures_get, ensures_update]
  exact sendFrames_spec blockFrames_encode _

theorem checkPeerListSize_same (headers : List HeaderField) (c : Connection) :
    Ensures (checkPeerListSize headers) c fun _ c' => c' = c := by
  simp only [checkPeerListSize, ensures_bind, ensures_get]
  cases c.remoteSettings.maxHeaderListSize with
  | none => rfl
  | some maxSize =>
    simp only [ensures_require]
    exact ⟨fun _ => trivial, fun _ => trivial⟩

/-- It passes the lists that the peer takes. -/
theorem checkPeerListSize_fits (headers : List HeaderField) (c : Connection) :
    Ensures (checkPeerListSize headers) c fun r c' => c' = c ∧ (r = .ok () →
      c.remoteSettings.maxHeaderListSize.all (calculateHeaderListSize headers ≤ ·.toNat) = true) := by
  simp only [checkPeerListSize, ensures_bind, ensures_get]
  cases c.remoteSettings.maxHeaderListSize with
  | none => simp
  | some maxSize =>
    simp only [ensures_require]
    exact ⟨fun hle => ⟨trivial, by simpa using hle⟩, fun _ => ⟨trivial, by simp⟩⟩

theorem checkStart_spec (headers : List HeaderField) (c : Connection) :
    Ensures (checkStart headers) c fun r c' =>
      c' = c ∧ (r = .ok () → c.role = .client ∧ c.state ≠ .goawayReceived ∧
        c.nextStreamId ≤ streamIdMax ∧ validateRequestHeaders headers = .ok ()) := by
  simp only [checkStart, ensures_bind, ensures_lift]
  cases hvalid : validateRequestHeaders headers with
  | error e => exact ⟨trivial, by simp⟩
  | ok u =>
    simp only [ensures_get, ensures_require]
    refine ⟨fun hrole => ⟨fun hstate => ⟨fun _ => ⟨fun _ => ⟨fun _ => ?_, fun _ => ?_⟩, fun _ => ?_⟩,
      fun _ => ?_⟩, fun _ => ?_⟩, fun _ => ?_⟩
    · apply ensures_mono (checkPeerListSize_same headers c)
      rintro r c' rfl
      cases r with
      | error e => exact ⟨rfl, by simp⟩
      | ok u =>
        simp only
        exact ⟨fun hmax => ⟨trivial, fun _ => ⟨hrole, hstate, hmax, trivial⟩⟩, fun _ => ⟨trivial, by simp⟩⟩
    all_goals exact ⟨trivial, by simp⟩

theorem startStream_spec (headers : List HeaderField) (endStream : Bool) (c : Connection) :
    Ensures (startStream headers endStream) c (Atomic c fun sid c' =>
      sid = c.nextStreamId ∧ Start c.toCore headers endStream c'.toCore) := by
  simp only [startStream, ensures_bind]
  apply ensures_mono (checkStart_spec headers c)
  rintro r _ ⟨rfl, hchecked⟩
  cases r with
  | error e => exact rfl
  | ok u =>
    obtain ⟨hrole, hstate, hmax, hvalid⟩ := hchecked rfl
    simp only [ensures_get, ensures_update, ensures_lift]
    apply ensures_mono (encodeAndSend_spec _ headers endStream _)
    rintro r c' ⟨rfl, hc'⟩
    simp only [ensures_pure, Atomic]
    rw [hc']
    refine ⟨trivial, .request _ hrole hstate hmax hvalid ?_ ?_⟩
    · unfold requestStream
      split <;> rfl
    · unfold requestStream
      split <;> rfl

theorem sendHeaders_closed {s s' : StreamState} {endStream : Bool}
    (h : s.sendHeaders endStream = .ok s') : (endStream && s'.isClosed) = s'.isClosed := by
  cases s <;> cases endStream <;> simp [StreamState.sendHeaders] at h <;>
    simp [← h, StreamState.isClosed]

theorem ensures_liveStream {α : Type} {c : Connection} {sid : Nat} {f : Stream → Conn α}
    {Q : Except Error α → Connection → Prop}
    (hgone : Q (.error (.streamError .streamClosed "stream not found")) c)
    (hlive : ∀ s, c.stream? sid = some s → Ensures (f s) c Q) :
    Ensures (liveStream c.toCore sid >>= f) c Q := by
  simp only [liveStream, ensures_bind]
  cases h : c.stream? sid with
  | none => exact hgone
  | some s => exact hlive s h

theorem sendSection_spec {c : Connection} {sid : Nat} {endStream : Bool} {note : Stream → Stream}
    (headers : List HeaderField) {Q : Unit → Connection → Prop}
    (h : ∀ s state c', c.stream? sid = some s → s.state.sendHeaders endStream = .ok state →
      c'.toCore = ((c.toCore.putStream sid { note s with state := state }).sendBlock sid headers
        endStream).closeIf sid state.isClosed → Q () c') :
    Ensures (sendSection sid headers endStream note) c (Atomic c Q) := by
  unfold sendSection
  rw [ensures_bind, ensures_get]
  refine ensures_liveStream rfl fun s hlive => ?_
  simp only [ensures_bind, ensures_lift]
  cases hstate : s.state.sendHeaders endStream with
  | error e => exact rfl
  | ok state =>
    simp only [ensures_update, sendHeaders_closed hstate]
    apply ensures_mono (encodeAndSend_spec _ headers endStream _)
    rintro r c' ⟨rfl, hc'⟩
    apply ensures_closeIf
    intro c'' hc''
    exact h s state c'' hlive hstate (by rw [hc'', hc', setCore_toCore])

theorem sendResponse_spec (sid : Nat) (headers : List HeaderField) (endStream : Bool)
    (c : Connection) :
    Ensures (sendResponse sid headers endStream) c (Atomic c fun _ c' =>
      Calm c.toCore (.api (.sendResponse sid headers endStream)) c'.toCore) := by
  simp only [sendResponse, ensures_bind, ensures_get, checkNoTunnel, ensures_require, ensures_lift]
  refine ⟨fun htunnel => ?_, fun _ => rfl⟩
  cases hvalid : validateResponseHeaders headers with
  | error e => exact rfl
  | ok u =>
    refine ⟨fun hending => ⟨fun hfirst => ?_, fun _ => rfl⟩, fun _ => rfl⟩
    apply ensures_mono (checkPeerListSize_fits headers c)
    rintro r c' ⟨rfl, hsize⟩
    cases r with
    | error e => exact rfl
    | ok u =>
      have hrest : (endStream = true → ∀ s, c'.stream? sid = some s → s.sendBuffer = []) →
          Ensures (sendSection sid headers endStream (responseStream headers)) c' (Atomic c' fun _ c'' =>
            Calm c'.toCore (.api (.sendResponse sid headers endStream)) c''.toCore) := by
        intro hempty
        apply sendSection_spec
        intro s state c'' hlive hstate hc''
        rw [hc'']
        refine .respond sid headers endStream hlive (htunnel s hlive) hvalid hstate
          (fun hend => hempty hend s hlive) ?_ rfl (hsize rfl)
        cases hinfo : isInformational headers with
        | true => exact .inl ⟨rfl, by simpa [hinfo] using hending⟩
        | false => exact .inr ⟨rfl, by simpa [hinfo] using hfirst.resolve_left (by simp [hinfo]) s hlive⟩
      simp only [checkSendBufferEmpty, ensures_ite, ensures_bind, ensures_require]
      refine ⟨fun _ => ⟨fun hempty => hrest fun _ s hlive => hempty s hlive, fun _ => rfl⟩,
        fun hend => hrest fun h => absurd h hend⟩

theorem sendTrailers_spec (sid : Nat) (headers : List HeaderField) (c : Connection) :
    Ensures (sendTrailers sid headers) c (Atomic c fun _ c' =>
      Calm c.toCore (.api (.sendTrailers sid headers)) c'.toCore) := by
  simp only [sendTrailers, ensures_bind, ensures_get, checkNoTunnel, ensures_require, ensures_lift]
  refine ⟨fun htunnel => ⟨fun hfinal => ?_, fun _ => rfl⟩, fun _ => rfl⟩
  cases hvalid : validateTrailers headers with
  | error e => exact rfl
  | ok u =>
    simp only
    apply ensures_mono (checkPeerListSize_same headers c)
    rintro r c' rfl
    cases r with
    | error e => exact rfl
    | ok u =>
      simp only [checkSendBufferEmpty, ensures_require]
      refine ⟨fun hempty => ?_, fun _ => rfl⟩
      apply sendSection_spec
      intro s state c'' hlive hstate hc''
      rw [hc'']
      exact .trail sid headers hlive (htunnel s hlive) hvalid hstate (hempty s hlive)
        (hfinal.imp_right fun h => h s hlive)

/-! ## Data -/

/-- What `send_data` does. -/
def Pushed (c : Connection) (sid : Nat) (data : Bytes) (endStream : Bool) (r : Except Error Unit)
    (c' : Connection) : Prop :=
  match r with
  | .ok _ => ∃ d, Push c.toCore sid data endStream d ∧ Emits d c'.toCore ∧ Drained c'.toCore sid
  | .error e => c' = c ∧ e.plain = true

theorem emptyEnd_drained {c d : Core} {sid : Nat} {s : Stream} {closed : Bool}
    (hd : d.streams.lookup sid = some s) (hempty : s.sendBuffer = [])
    (hc : c = d.closeIf sid closed) : Drained c sid := by
  subst hc
  intro s' hlive hne
  rw [Core.stream?_eq, Core.closeIf_lookup] at hlive
  split at hlive
  · cases hlive
  · obtain rfl := Option.some.inj (hd.symm.trans hlive)
    exact absurd hempty hne

theorem sendData_spec (sid : Nat) (data : Bytes) (endStream : Bool) (c : Connection)
    (ht : Tidy c.toCore) : Ensures (sendData sid data endStream) c (Pushed c sid data endStream) := by
  unfold sendData
  rw [ensures_bind, ensures_get]
  refine ensures_liveStream ⟨rfl, rfl⟩ fun s hlive => ?_
  simp only [ensures_bind, ensures_require, ensures_lift]
  refine ⟨fun hpending => ?_, fun _ => ⟨rfl, rfl⟩⟩
  unfold StreamState.sendData
  by_cases hcan : s.state.canSend = true
  · rw [if_pos hcan]
    simp only [queueData, liveStream, ensures_bind, ensures_get, hlive, ensures_pure, ensures_require,
      ensures_update]
    refine ⟨fun hpush => ?_, fun _ => ⟨rfl, rfl⟩⟩
    rw [SendBuffer.push_of_canPush hpush, hpending, Bool.false_or]
    by_cases hnothing : endStream = true ∧ s.sendBuffer ++ data = []
    · -- Nothing is queued but END_STREAM.
      obtain ⟨rfl, hnil⟩ := hnothing
      obtain ⟨hempty, rfl⟩ := List.append_eq_nil_iff.1 hnil
      obtain ⟨state, hstate⟩ := completeSendData_ok hcan
      refine flushAndRemove_emptyEnd (AList.lookup_insert _) (by exact hnil) (by rfl)
        (by exact hstate) fun c' hc' => ?_
      have hsame : ({ s with
          sendBuffer := s.sendBuffer ++ [], pendingEndStream := false, state := state } : Stream) =
          { s with state := state } := by
        rw [List.append_nil, ← hpending]
      rw [setCore_toCore, Core.putStream_putStream, hsame] at hc'
      refine ⟨c'.toCore, ?_, .refl, ?_⟩
      · rw [hc']
        exact .emptyEnd hlive hpending hempty hstate
      · exact emptyEnd_drained (AList.lookup_insert _) (by exact hempty) hc'
    · have hwake := Push.queue data endStream hlive hpending hcan
        (fun hend hnil => hnothing ⟨hend, hnil⟩) hpush
      apply ensures_mono (flushAndRemove_spec sid (push_tidy ht hwake))
      rintro r c' ⟨rfl, hemits, hdrained⟩
      exact ⟨_, hwake, hemits, hdrained⟩
  · rw [if_neg hcan]
    exact ⟨rfl, rfl⟩

/-! ## Connection level -/

theorem resetStream_spec (sid : Nat) (code : ErrorCode) (c : Connection) (ht : Tidy c.toCore) :
    Ensures (resetStream sid code) c (Atomic c fun _ c' =>
      Calm c.toCore (.api (.resetStream sid code)) c'.toCore) := by
  apply ensures_resetStream ht
  · intro s c' hlive hc'
    simp only [Atomic]
    rw [hc']
    exact .reset sid code hlive
  · intro c' hgone hidle hc'
    simp only [Atomic]
    rw [hc']
    exact .resetGone sid code hgone hidle
  · exact fun _ _ => rfl

theorem sendWindowUpdate_spec (sid increment : Nat) (c : Connection) :
    Ensures (sendWindowUpdate sid increment) c (Atomic c fun _ c' =>
      Calm c.toCore (.api (.sendWindowUpdate sid increment)) c'.toCore ∧
        (sid = 0 → Calm c.toCore .inner c'.toCore)) := by
  simp only [sendWindowUpdate, ensures_bind, ensures_require, ensures_get]
  refine ⟨fun hzero => ⟨fun hle => ?_, fun _ => rfl⟩, fun _ => rfl⟩
  have hpos : 0 < increment := Nat.pos_of_ne_zero hzero
  by_cases hsid : sid = 0
  · subst hsid
    simp only [if_true, ensures_bind, ensures_lift, ensures_update]
    cases hflow : c.flowControl.addRecvWindow increment with
    | error e => exact rfl
    | ok fc =>
      obtain ⟨⟨_, hmax⟩, rfl⟩ := FlowControl.addRecvWindow_eq_ok.1 hflow
      simp only
      rw [ensures_sendFrame rfl]
      exact ⟨.credit _ increment (.inr rfl) hpos hmax, fun _ => .credit _ increment (.inl rfl) hpos hmax⟩
  · rw [if_neg hsid]
    cases hlive : c.stream? sid with
    | none =>
      simp only
      rw [ensures_sendFrame rfl]
      exact ⟨.creditGone sid increment hsid hlive hpos hle, fun h => absurd h hsid⟩
    | some s =>
      simp only [ensures_bind, ensures_lift, ensures_update]
      cases hflow : s.flowControl.addRecvWindow increment with
      | error e => exact rfl
      | ok fc =>
        obtain ⟨⟨_, hmax⟩, rfl⟩ := FlowControl.addRecvWindow_eq_ok.1 hflow
        simp only
        rw [ensures_sendFrame rfl]
        exact ⟨.creditStream sid increment hsid hlive hpos hmax, fun h => absurd h hsid⟩

theorem sendGoaway_spec (errorCode : ErrorCode) (debugData : Bytes) (c : Connection) :
    Ensures (sendGoaway errorCode debugData) c (Atomic c fun _ c' =>
      Calm c.toCore (.api (.sendGoaway errorCode debugData)) c'.toCore) := by
  simp only [sendGoaway, ensures_bind, ensures_get]
  rw [ensures_sendFrame rfl]
  exact .goaway errorCode debugData

theorem sendPing_spec (opaqueData : Bytes) (c : Connection) :
    Ensures (sendPing opaqueData) c (Atomic c fun _ c' =>
      Calm c.toCore (.api (.sendPing opaqueData)) c'.toCore) := by
  unfold sendPing
  rw [ensures_sendFrame rfl]
  exact .ping opaqueData

/-- What a call does, whether or not it succeeds. -/
def Leads {α : Type} (T : Terms) (c : Core) (_ : Except Error α) (c' : Connection) : Prop :=
  Chain T c c'.toCore

theorem initialWindowUpdate_leads {T : Terms} {c : Connection} :
    Ensures sendInitialConnectionWindowUpdate c (Leads T c.toCore) := by
  simp only [sendInitialConnectionWindowUpdate, ensures_bind, ensures_get, ensures_ite]
  refine ⟨fun _ => .refl, fun _ => ⟨fun _ => ?_, fun _ => .refl⟩⟩
  generalize c.connectionWindowSize - defaultInitialWindowSize = increment
  apply ensures_mono (sendWindowUpdate_spec 0 increment c)
  intro r c' hr
  cases r with
  | ok u => exact .single (hr.2 rfl) trivial
  | error e =>
    obtain rfl := hr
    exact .refl

/-- SETTINGS and the credit that follows it. -/
theorem announce_leads {T : Terms} {c c₁ : Connection} {k : Call}
    (hk : k = .initiate ∨ k = .sendSettings) (hl : T.Meets c.toCore (.api k))
    (hc₁ : c₁.toCore = c.toCore.log
      (.sent (.settings ⟨false, settingsToSend c.role c.localSettings⟩))) :
    Ensures sendInitialConnectionWindowUpdate c₁ (Leads T c.toCore) := by
  apply ensures_mono (initialWindowUpdate_leads (T := T))
  intro r c' hr
  simp only [Leads] at hr
  rw [hc₁] at hr
  exact (Chain.single (.announce k hk) hl).trans hr

theorem sendSettings_leads {T : Terms} {c : Connection} (hl : T.Meets c.toCore (.api .sendSettings)) :
    Ensures sendSettings c (Leads T c.toCore) := by
  simp only [sendSettings, ensures_bind, ensures_get]
  rw [ensures_sendFrame rfl]
  simp only [ensures_modify]
  exact announce_leads (.inr rfl) hl rfl

theorem initiate_leads {T : Terms} {c : Connection} (hl : T.Meets c.toCore (.api .initiate)) :
    Ensures initiate c (Leads T c.toCore) := by
  simp only [initiate, ensures_bind, ensures_get, ensures_ite, ensures_modify]
  refine ⟨fun _ => .refl, fun _ => ?_⟩
  rw [ensures_sendFrame (f := .settings _) rfl]
  exact announce_leads (.inl rfl) hl rfl

/-! ## Calls and runs -/

/-- What a call may do, by its kind and its result. -/
def Performs (T : Terms) (c : Core) (k : Call) (r : Except Error Value) (c' : Core) : Prop :=
  match k, r with
  | .startStream headers endStream, .ok v => v = .streamId c.nextStreamId ∧ Start c headers endStream c'
  | .sendData sid data endStream, .ok _ =>
    ∃ d, Push c sid data endStream d ∧ Emits d c' ∧ Drained c' sid
  | .feed _, .error e | .process _, .error e => Broken T c e c'
  | _, _ => Chain T c c'

/-- A result is passed on in another form. -/
theorem ensures_map {α β : Type} {c : Connection} {m : Conn α} {g : α → β}
    {Q : Except Error β → Connection → Prop} {P : Except Error α → Connection → Prop}
    (h : Ensures m c P) (hok : ∀ a c', P (.ok a) c' → Q (.ok (g a)) c')
    (herror : ∀ e c', P (.error e) c' → Q (.error e) c') :
    Ensures (do return g (← m)) c Q := by
  simp only [ensures_bind]
  apply ensures_mono h
  intro r c' hr
  cases r with
  | ok a => exact hok a c' hr
  | error e => exact herror e c' hr

theorem exec_performs {T : Terms} {c : Connection} (k : Call) (ht : Tidy c.toCore)
    (hl : T.Meets c.toCore (.api k)) (hheeds : k.Heeds T c) :
    Ensures k.exec c fun r c' => Performs T c.toCore k r c'.toCore := by
  have hstay : Chain T c.toCore c.toCore := .refl
  -- A call that is one transition when it succeeds and nothing when it fails.
  have hatomic : ∀ {m : Conn Unit},
      Ensures m c (Atomic c fun _ c' => Calm c.toCore (.api k) c'.toCore) →
      (∀ r c', Chain T c.toCore c' → Performs T c.toCore k r c') →
      Ensures (Call.unitValue m) c fun r c' => Performs T c.toCore k r c'.toCore := by
    intro m hm hk
    refine ensures_map hm (fun _ c' hr => hk _ _ (.single hr hl)) fun _ c' hr => hk _ _ ?_
    obtain rfl : c' = c := hr
    exact hstay
  have hquiet : ∀ {m : Conn Unit}, Ensures m c (Leads T c.toCore) →
      (∀ r c', Chain T c.toCore c' → Performs T c.toCore k r c') →
      Ensures (Call.unitValue m) c fun r c' => Performs T c.toCore k r c'.toCore :=
    fun hm hk => ensures_map hm (fun _ c' hr => hk _ _ hr) fun _ c' hr => hk _ _ hr
  cases k with
  | initiate => exact hquiet (initiate_leads hl) fun _ _ hr => hr
  | feed data => exact ensures_map (feed_follows data) (fun _ _ hr => hr) fun _ _ hr => hr
  | markPrefaceReceived => exact hstay
  | markPrefaceSent => exact hstay
  | sendSettings => exact hquiet (sendSettings_leads hl) fun _ _ hr => hr
  | process it => exact ensures_map (process_follows it ht hheeds) (fun _ _ hr => hr) fun _ _ hr => hr
  | pollEvent => exact hstay
  | pollOutput => exact hstay
  | startStream headers endStream =>
    refine ensures_map (startStream_spec headers endStream c) ?_ ?_
    · rintro sid c' ⟨rfl, hstart⟩
      exact ⟨rfl, hstart⟩
    · rintro e c' ⟨rfl⟩
      exact hstay
  | sendResponse sid headers endStream =>
    exact hatomic (sendResponse_spec sid headers endStream c) fun _ _ hr => hr
  | sendTrailers sid headers => exact hatomic (sendTrailers_spec sid headers c) fun _ _ hr => hr
  | sendData sid data endStream =>
    refine ensures_map (sendData_spec sid data endStream c ht) (fun _ _ hr => hr) ?_
    rintro e c' ⟨rfl, _⟩
    exact hstay
  | resetStream sid errorCode => exact hatomic (resetStream_spec sid errorCode c ht) fun _ _ hr => hr
  | sendPing opaqueData => exact hatomic (sendPing_spec opaqueData c) fun _ _ hr => hr
  | sendGoaway errorCode debugData =>
    exact hatomic (sendGoaway_spec errorCode debugData c) fun _ _ hr => hr
  | sendWindowUpdate sid increment =>
    refine hatomic (ensures_mono (sendWindowUpdate_spec sid increment c) fun r c' hr => ?_) fun _ _ hr => hr
    cases r with
    | ok u => exact hr.1
    | error e => exact hr

/-- A transition or a failure. -/
inductive Change (c : Core) (l : Label) (d : Core) : Prop
  | step (h : Step c l d)
  | fault {e : Error} (h : Fault c e l d)

/-- Transitions and failures in any order. -/
abbrev Evolves (T : Terms) := Relation.ReflTransGen fun c d : Core => ∃ l, T.Meets c l ∧ Change c l d

theorem steps_evolves {T : Terms} {c d : Core} (h : Steps T c d) : Evolves T c d := by
  have hle : (fun c d : Core => ∃ l, T.Meets c l ∧ Step c l d) ≤
      fun c d : Core => ∃ l, T.Meets c l ∧ Change c l d :=
    fun _ _ ⟨l, hl, hstep⟩ => ⟨l, hl, .step hstep⟩
  exact Relation.ReflTransGen.mono hle _ _ h

theorem change_tidy {c d : Core} {l : Label} (h : Tidy c) (hchange : Change c l d) : Tidy d := by
  cases hchange with
  | step hstep => exact step_tidy h hstep
  | fault hfault => exact fault_tidy h hfault

theorem evolves_tidy {T : Terms} {c d : Core} (h : Tidy c) (hevolves : Evolves T c d) : Tidy d := by
  induction hevolves with
  | refl => exact h
  | tail _ hchange ih =>
    obtain ⟨l, _, hchange⟩ := hchange
    exact change_tidy ih hchange

theorem broken_evolves {T : Terms} {c d : Core} {e : Error} (h : Broken T c e d) : Evolves T c d := by
  obtain ⟨d', l, hchain, hl, hfault⟩ := h
  exact (steps_evolves hchain.steps).tail ⟨l, hl, .fault hfault⟩

theorem performs_evolves {T : Terms} {c c' : Core} {k : Call} {r : Except Error Value}
    (hl : T.Meets c (.api k)) (h : Performs T c k r c') : Evolves T c c' := by
  unfold Performs at h
  split at h
  · exact .single ⟨_, hl, .step (.start h.2)⟩
  · obtain ⟨d, hpush, hemits, _⟩ := h
    exact (Relation.ReflTransGen.single ⟨_, hl, .step (.push hpush)⟩).trans
      (steps_evolves (emits_steps hemits))
  · exact broken_evolves h
  · exact broken_evolves h
  · exact steps_evolves h.steps

/-- Whatever is called, failing calls included, the core goes through transitions and faults. -/
theorem RunOf.evolves {T : Terms} {c₀ c : Connection} {history : List Record}
    (h : RunOf T c₀ history c) (ht : Tidy c₀.toCore) : Evolves T c₀.toCore c.toCore := by
  induction h with
  | start => exact .refl
  | call k hk hheeds _ ih =>
    have ht' := evolves_tidy ht ih
    exact ih.trans (performs_evolves hk (exec_performs k ht' hk hheeds))

theorem run_evolves {T : Terms} {role : Role} {limits : Limits} {history : List Record}
    {c : Connection} (h : RunOf T (Connection.new role limits) history c) :
    Evolves T (Core.new role limits) c.toCore :=
  h.evolves (Tidy.new role limits)

theorem run_tidy {T : Terms} {role : Role} {limits : Limits} {history : List Record}
    {c : Connection} (h : RunOf T (Connection.new role limits) history c) : Tidy c.toCore :=
  evolves_tidy (Tidy.new role limits) (run_evolves h)

theorem performs_course {T : Terms} {c₀ c c' : Core} {k : Call} {r : Except Error Value}
    (hc : Course T c₀ c) (hl : T.Meets c (.api k)) (h : Performs T c k r c')
    (hsound : k.isInput = true → ∃ v, r = .ok v) : Course T c₀ c' := by
  unfold Performs at h
  split at h
  · exact hc.start h.2 hl
  · obtain ⟨d, hpush, hemits, hdrained⟩ := h
    exact hc.push hpush hl hemits hdrained
  · obtain ⟨v, hv⟩ := hsound rfl
    cases hv
  · obtain ⟨v, hv⟩ := hsound rfl
    cases hv
  · exact hc.chain h

theorem Record.ok_iff {r : Record} : r.ok = true ↔ ∃ v, r.result = .ok v := by
  unfold Record.ok
  cases r.result with
  | ok v => simp
  | error e => simp

theorem Sound.tail {r : Record} {history : List Record} (h : Sound (r :: history)) : Sound history :=
  fun r' hr' => h r' (List.mem_cons_of_mem _ hr')

theorem Sound.head {r : Record} {history : List Record} (h : Sound (r :: history))
    (hinput : r.call.isInput = true) : ∃ v, r.result = .ok v :=
  Record.ok_iff.1 (h r (List.mem_cons_self ..) hinput)

/-- As long as nothing received was refused there are transitions only, and whatever was queued is
sent as far as it can be. -/
theorem run_course {T : Terms} {role : Role} {limits : Limits} {history : List Record}
    {c : Connection} (h : RunOf T (Connection.new role limits) history c) (hsound : Sound history) :
    Course T (Core.new role limits) c.toCore := by
  induction h with
  | start => exact .refl
  | call k hk hheeds hrun ih =>
    exact performs_course (ih hsound.tail) hk (exec_performs k (run_tidy hrun) hk hheeds) hsound.head

/-! ## Failures -/

/-- A result that is passed on changes nothing when it is an error. -/
theorem atomic_map {α β : Type} {c : Connection} {m : Conn α} {g : α → β} {Q : α → Connection → Prop}
    (h : Ensures m c (Atomic c Q)) : Ensures (do return g (← m)) c (Atomic c fun _ _ => True) :=
  ensures_map h (fun _ _ _ => trivial) fun _ _ hr => hr

theorem exec_atomic {c : Connection} (k : Call) (ht : Tidy c.toCore) (hk : k.isRequest = true) :
    Ensures k.exec c (Atomic c fun _ _ => True) := by
  cases k with
  | startStream headers endStream => exact atomic_map (startStream_spec headers endStream c)
  | sendResponse sid headers endStream => exact atomic_map (sendResponse_spec sid headers endStream c)
  | sendTrailers sid headers => exact atomic_map (sendTrailers_spec sid headers c)
  | sendData sid data endStream =>
    refine ensures_map (sendData_spec sid data endStream c ht) (fun _ _ _ => trivial) ?_
    exact fun _ _ hr => hr.1
  | resetStream sid errorCode => exact atomic_map (resetStream_spec sid errorCode c ht)
  | sendGoaway errorCode debugData => exact atomic_map (sendGoaway_spec errorCode debugData c)
  | sendWindowUpdate sid increment => exact atomic_map (sendWindowUpdate_spec sid increment c)
  | initiate | feed _ | markPrefaceReceived | markPrefaceSent | sendSettings | process _ | pollEvent
  | pollOutput | sendPing _ => cases hk

/-- Whatever led to a connection, one of these calls that fails leaves all of it as it was. -/
theorem failed_request_unchanged {role : Role} {limits : Limits} {history : List Record}
    {c : Connection} (h : Run (Connection.new role limits) history c) (k : Call)
    (hk : k.isRequest = true) (e : Error) (herror : (k.exec c).1 = .error e) :
    (k.exec c).2 = c := by
  have hatomic := exec_atomic k (run_tidy h.any) hk
  unfold Ensures at hatomic
  rw [herror] at hatomic
  exact hatomic

/-- `send_data` on a stream that was never begun, with another one open. -/
theorem failed_request_unchanged_sendData :
    ∃ history c, Run (Connection.new .client .default) history c ∧ (c.stream? 1).isSome = true ∧
      ((Call.sendData 3 [] true).exec c).1 =
        .error (.streamError .streamClosed "stream not found") ∧
      ((Call.sendData 3 [] true).exec c).2 = c := by
  have hrun := Run.execAll (c := Connection.new .client .default) .start [.startStream getRequest false]
  have herror : ((Call.sendData 3 [] true).exec (execAll [.startStream getRequest false] []
      (Connection.new .client .default)).2).1 =
      .error (.streamError .streamClosed "stream not found") := by decide +kernel
  refine ⟨_, _, hrun, by decide +kernel, herror, ?_⟩
  exact failed_request_unchanged hrun (.sendData 3 [] true) rfl _ herror

end Http2
