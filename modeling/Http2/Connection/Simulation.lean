import Http2.Connection.Flush

/-! The handlers and the calls refine the transitions: whatever they do to the core is a `Chain`,
and a handler that fails ends one with a `Fault`. -/
namespace Http2

open Hpack Lib Lib.Prog Connection

/-- Not an error of `flush_stream_data` and not COMPRESSION_ERROR. -/
def Error.plain (e : Error) : Bool :=
  match e.kind with
  | .connectionError .compressionError => false
  | .connectionError .flowControlError => e.reason != .text "send window exhausted"
  | .streamError .streamClosed => e.reason != .text "complete_send_data called in invalid state"
  | _ => true

theorem consumeRecv_plain {fc : FlowControl} {size : Nat} {e : Error}
    (h : fc.consumeRecv size = .error e) : e.plain = true := by
  unfold FlowControl.consumeRecv FlowControl.checkSize at h
  split at h
  · cases h
    rfl
  · split at h <;> cases h
    rfl

theorem recvWindowUpdate_plain {fc : FlowControl} {increment : Nat} {e : Error}
    (h : fc.recvWindowUpdate increment = .error e) : e.plain = true := by
  unfold FlowControl.recvWindowUpdate FlowControl.checkIncrement at h
  split at h
  · cases h
    rfl
  · split at h <;> cases h
    rfl

theorem updateInitialWindowSize_plain {fc : FlowControl} {size : Nat} {e : Error}
    (h : fc.updateInitialWindowSize size = .error e) : e.plain = true := by
  simp only [FlowControl.updateInitialWindowSize] at h
  split at h <;> cases h
  rfl

/-- What a frame leaves behind whose handler failed with the error `e`. -/
inductive Fault (c : Core) (e : Error) : Label → Core → Prop
  | decoder (hplain : e.plain = true) : Fault c e .inner c
  | refused (f : Frame) (hplain : e.plain = true) : Fault c e (.frame f) (c.log (.received f))
  | settings (f : SettingsFrame) (remote : Settings) (pending : PendingUpdate)
      (streams : AList fun _ : Nat => Stream) (hplain : e.plain = true)
      (hstreams : ∀ sid, (c.streams.lookup sid = none ∧ streams.lookup sid = none) ∨
        ∃ s fc, c.streams.lookup sid = some s ∧ streams.lookup sid = some { s with flowControl := fc })
      (hack : f.ack = false)
      (hturned : ∀ sid s s', c.streams.lookup sid = some s → streams.lookup sid = some s' →
        s'.flowControl = s.flowControl ∨ s.flowControl.updateInitialWindowSize
          (f.settings.foldl Settings.apply c.remoteSettings).initialWindowSize = .ok s'.flowControl) :
      Fault c e (.frame (.settings f)) ({ c with
        remoteSettings := remote
        pendingTableSizeUpdate := pending
        streams := streams }.log (.received (.settings f)))
  -- A header block that HPACK refuses, or one that is too long.
  | badBlock {e' : Error} (f : HeadersFrame) (d : Decoder)
      (hkind : e.kind = .connectionError .compressionError) (hcont : c.headerContinuationStream = none)
      (hadmits : c.Admits f.streamId) (hlast : f.endHeaders = true)
      (hdecode : c.hpackDecoder.decode f.headerBlockFragment = (.error e', d)) :
      Fault c e (.frame (.headers f)) ((c.log (.received (.headers f))).decodeWhole f.streamId d)
  | badLast {e' : Error} (f : ContinuationFrame) (d : Decoder)
      (hkind : e.kind = .connectionError .compressionError)
      (hcont : c.headerContinuationStream = some f.streamId) (hlast : f.endHeaders = true)
      (hdecode : c.hpackDecoder.decode (c.headerBlockFragment ++ f.headerBlockFragment) =
        (.error e', d)) :
      Fault c e (.frame (.continuation f)) { (c.log (.received (.continuation f))).growBlock
        f.headerBlockFragment with
          headerContinuationStream := none
          hpackDecoder := d }
  | longBlock (f : HeadersFrame) (hkind : e.kind = .connectionError .compressionError)
      (hcont : c.headerContinuationStream = none)
      (hadmits : c.Admits f.streamId) (hfirst : f.endHeaders = false)
      (hlong : effectiveMaxFragment c.localSettings < f.headerBlockFragment.length) :
      Fault c e (.frame (.headers f)) ((c.log (.received (.headers f))).openBlock f)
  | longNext (f : ContinuationFrame) (hkind : e.kind = .connectionError .compressionError)
      (hcont : c.headerContinuationStream = some f.streamId)
      (hlong : effectiveMaxFragment c.localSettings <
        (c.headerBlockFragment ++ f.headerBlockFragment).length) :
      Fault c e (.frame (.continuation f)) ((c.log (.received (.continuation f))).growBlock
        f.headerBlockFragment)

/-- Transitions up to a failure. -/
def Broken (T : Terms) (c : Core) (e : Error) (c' : Core) : Prop :=
  ∃ d l, Chain T c d ∧ T.Meets d l ∧ Fault d e l c'

/-- What a handler may do from the core `c` on. -/
def Follows {α : Type} (T : Terms) (c : Core) (r : Except Error α) (c' : Connection) : Prop :=
  match r with
  | .ok _ => Chain T c c'.toCore
  | .error e => Broken T c e c'.toCore

theorem fault_tidy {c c' : Core} {e : Error} {l : Label} (h : Tidy c) (hfault : Fault c e l c') :
    Tidy c' := by
  cases hfault with
  | decoder => exact h
  | refused | longNext => exact h.congr rfl ⟨rfl, rfl, rfl, rfl, Nat.le_refl _⟩
  | settings f remote pending streams _ hstreams =>
    refine ⟨fun sid s hlive => ?_, h.closed, h.block, h.next⟩
    obtain ⟨_, hnone⟩ | ⟨s₀, fc, hold, hnew⟩ := hstreams sid
    · cases hnone.symm.trans hlive
    · obtain rfl := Option.some.inj (hnew.symm.trans hlive)
      obtain ⟨hsid, htidy⟩ := h.streams sid s₀ hold
      exact ⟨hsid, htidy.state, htidy.pending, htidy.queued⟩
  | badBlock => exact h.congr rfl ⟨rfl, rfl, rfl, rfl, Nat.le_max_left _ _⟩
  | badLast => exact ⟨h.streams, h.closed, by simp, h.next⟩
  | longBlock f _ _ hadmits =>
    refine ⟨h.streams, h.closed, fun sid hsid => ?_, h.next⟩
    obtain rfl : f.streamId = sid := by simpa using hsid
    exact ⟨hadmits.1, Nat.le_max_right _ _⟩

theorem chain_tidy {T : Terms} {c d : Core} (h : Tidy c) (hchain : Chain T c d) : Tidy d :=
  steps_tidy h hchain.steps

/-! ## Rules -/

section Rules

variable {α β : Type} {T : Terms} {c₀ : Core} {c : Connection}

theorem broken_of_fault {e : Error} {l : Label} {d : Core} (hl : T.Meets c₀ l) (h : Fault c₀ e l d) :
    Broken T c₀ e d := ⟨c₀, l, .refl, hl, h⟩

/-- Go on from where a chain has led. -/
theorem follows_trans {m : Conn α} {d : Core} (hchain : Chain T c₀ d) (hm : Ensures m c (Follows T d)) :
    Ensures m c (Follows T c₀) := by
  apply ensures_mono hm
  intro r c' hr
  cases r with
  | ok a => exact hchain.trans hr
  | error e =>
    obtain ⟨e', l, hchain', hl, hfault⟩ := hr
    exact ⟨e', l, hchain.trans hchain', hl, hfault⟩

theorem pushEvent_follows {e : Event} (h : Chain T c₀ (c.toCore.log (.event e))) :
    Ensures (pushEvent e) c (Follows T c₀) := h

theorem closeIf_follows {sid : Nat} {closed : Bool} (h : Chain T c₀ (c.toCore.closeIf sid closed)) :
    Ensures (Connection.closeIf sid closed) c (Follows T c₀) := by
  apply ensures_closeIf
  intro c' hc'
  exact (congrArg _ hc').mpr h

/-- RST_STREAM for a live stream. -/
theorem ensures_reset {Q : Except Error Unit → Connection → Prop} {sid : Nat} {s : Stream}
    {code : ErrorCode} {consumed : Nat} (hsid : sid ≠ 0) (hlive : c.stream? sid = some s)
    (h : ∀ c', c'.toCore = c.toCore.resetWith sid code consumed → Q (.ok ()) c') :
    Ensures (resetStreamInternal sid code consumed) c Q := by
  have hidle : c.isIdleStream sid = false := by
    unfold Core.isIdleStream
    rw [hlive]
    rfl
  simp only [resetStreamInternal, ensures_bind, ensures_get, ensures_require, hsid, hidle, ne_eq,
    not_false_iff, not_true, false_implies, and_true, true_implies]
  rw [ensures_sendFrame rfl, hlive]
  exact h _ rfl

theorem reset_follows {sid : Nat} {s : Stream} {code : ErrorCode} {consumed : Nat} (hsid : sid ≠ 0)
    (hlive : c.stream? sid = some s) (h : Chain T c₀ (c.toCore.resetWith sid code consumed)) :
    Ensures (resetStreamInternal sid code consumed) c (Follows T c₀) := by
  apply ensures_reset hsid hlive
  intro c' hc'
  exact (congrArg _ hc').mpr h

/-- RST_STREAM for a stream that is gone. -/
theorem ensures_resetGone {Q : Except Error Unit → Connection → Prop} {sid : Nat} {code : ErrorCode}
    {consumed : Nat} (hsid : sid ≠ 0) (hgone : c.stream? sid = none)
    (hidle : c.isIdleStream sid = false)
    (h : ∀ c', c'.toCore = c.toCore.log (.sent (.rstStream sid code.asU32)) → Q (.ok ()) c') :
    Ensures (resetStreamInternal sid code consumed) c Q := by
  simp only [resetStreamInternal, ensures_bind, ensures_get, ensures_require, hsid, hidle, ne_eq,
    not_false_iff, not_true, false_implies, and_true, true_implies]
  rw [ensures_sendFrame rfl, hgone]
  exact h _ rfl

end Rules

/-! ## DATA and RST_STREAM -/

theorem discardData_follows {T : Terms} {c₀ : Core} {c : Connection} {f : DataFrame}
    (hl : T.Meets c₀ (.frame (.data f))) (hgone : c₀.stream? f.streamId = none)
    (hconn : (f.flowControlSize : Int) ≤ c₀.flowControl.recvWindow)
    (hc : c.toCore = (c₀.log (.received (.data f))).chargeRecv f.flowControlSize) :
    Ensures (discardData f.streamId f.flowControlSize) c (Follows T c₀) := by
  simp only [discardData, ensures_ite]
  constructor
  · intro hpos
    apply pushEvent_follows
    rw [hc]
    exact .single (.reportData f hgone hconn hpos) hl
  · intro hzero
    change Chain T c₀ c.toCore
    rw [hc]
    exact .single (.discardData f hgone hconn (by omega)) hl

theorem recvData_closed {s s' : StreamState} {endStream : Bool} (h : s.recvData endStream = .ok s') :
    (endStream && s'.isClosed) = s'.isClosed := by
  obtain ⟨_, hto⟩ | ⟨_, hto⟩ := recvData_cases h <;> cases endStream <;> simp [hto, StreamState.isClosed]

theorem receiveData_follows {T : Terms} {c₀ : Core} {c : Connection} {f : DataFrame} {s : Stream}
    (hl : T.Meets c₀ (.frame (.data f))) (hsid : f.streamId ≠ 0) (hlive : c₀.stream? f.streamId = some s)
    (hconn : (f.flowControlSize : Int) ≤ c₀.flowControl.recvWindow)
    (hsize : f.flowControlSize ≤ isizeMax)
    (hc : c.toCore = (c₀.log (.received (.data f))).chargeRecv f.flowControlSize) :
    Ensures (receiveData f s) c (Follows T c₀) := by
  have hlive' : c.stream? f.streamId = some s := by
    rw [Core.stream?_eq, hc]
    exact hlive
  -- Every reset on the way is the same transition, with its own code.
  have hreset : ∀ code : ErrorCode,
      (code = .flowControlError → s.flowControl.recvWindow < f.flowControlSize) →
      Ensures (resetStreamInternal f.streamId code f.flowControlSize) c (Follows T c₀) := by
    intro code hcode
    apply reset_follows hsid hlive'
    rw [hc]
    exact .single (.refuseData f code hlive hconn hcode) hl
  simp only [receiveData]
  cases hstate : s.state.recvData f.endStream with
  | error e => exact hreset _ (by simp)
  | ok state =>
    cases hflow : s.flowControl.consumeRecv f.flowControlSize with
    | error e =>
      refine hreset _ fun _ => ?_
      by_contra hle
      have hfits : (f.flowControlSize : Int) ≤ s.flowControl.recvWindow := by omega
      cases hflow.symm.trans (FlowControl.consumeRecv_eq_ok.2 ⟨⟨hsize, hfits⟩, rfl⟩)
    | ok fc =>
      obtain ⟨⟨_, hstream⟩, rfl⟩ := FlowControl.consumeRecv_eq_ok.1 hflow
      simp only [ensures_ite]
      refine ⟨fun _ => hreset _ (by simp), fun hcontent => ⟨fun _ => hreset _ (by simp), fun hlength => ?_⟩⟩
      rw [recvData_closed hstate]
      simp only [ensures_bind, ensures_update, ensures_pushEvent]
      apply closeIf_follows
      rw [addEvent_toCore, setCore_toCore, hc]
      refine .single (.deliverData f hlive hconn hstream hstate ?_ (by simpa using hlength) rfl) hl
      intro hno
      simpa [hno] using hcontent

theorem handleData_follows {T : Terms} {c : Connection} (f : DataFrame) (ht : Tidy c.toCore)
    (hl : T.Meets c.toCore (.frame (.data f))) :
    Ensures (handleData f) (c.setCore (c.toCore.log (.received (.data f)))) (Follows T c.toCore) := by
  simp only [handleData, checkNotIdleStream, ensures_bind, ensures_get, ensures_require, ensures_lift,
    ensures_update, setCore_toCore, Core.log_flowControl, Core.stream?_eq, Core.log_streams]
  refine ⟨fun _ => ?_, fun _ => broken_of_fault hl (.refused _ rfl)⟩
  cases hflow : c.flowControl.consumeRecv f.flowControlSize with
  | error e => exact broken_of_fault hl (.refused _ (consumeRecv_plain hflow))
  | ok fc =>
    obtain ⟨⟨hsize, hconn⟩, rfl⟩ := FlowControl.consumeRecv_eq_ok.1 hflow
    cases hlive : c.streams.lookup f.streamId with
    | none => exact discardData_follows hl hlive hconn rfl
    | some s =>
      obtain ⟨hsid, htidy⟩ := ht.streams _ _ hlive
      simp only [htidy.notClosed, Bool.false_eq_true, if_false]
      exact receiveData_follows hl hsid hlive hconn hsize rfl

theorem handleRstStream_follows {T : Terms} {c : Connection} (sid errorCode : Nat)
    (hl : T.Meets c.toCore (.frame (.rstStream sid errorCode))) :
    Ensures (handleRstStream sid errorCode)
      (c.setCore (c.toCore.log (.received (.rstStream sid errorCode)))) (Follows T c.toCore) := by
  simp only [handleRstStream, checkNotIdleStream, ensures_bind, ensures_get, ensures_require,
    setCore_toCore, Core.stream?_eq, Core.log_streams]
  refine ⟨fun _ => ?_, fun _ => broken_of_fault hl (.refused _ rfl)⟩
  cases hlive : c.streams.lookup sid with
  | none => exact .single (.receive _ hlive) hl
  | some s => exact .single (.peerReset sid errorCode hlive) hl

/-! ## WINDOW_UPDATE, PING, GOAWAY and PRIORITY_UPDATE -/

theorem handleStreamWindowUpdate_follows {T : Terms} {c : Connection} {sid : Nat} (increment : Nat)
    (hsid : sid ≠ 0) (ht : Tidy c.toCore)
    (hl : T.Meets c.toCore (.frame (.windowUpdate sid increment))) :
    Ensures (handleStreamWindowUpdate sid increment)
      (c.setCore (c.toCore.log (.received (.windowUpdate sid increment)))) (Follows T c.toCore) := by
  simp only [handleStreamWindowUpdate, checkNotIdleStream, ensures_bind, ensures_get,
    ensures_require, setCore_toCore, Core.stream?_eq, Core.log_streams]
  refine ⟨fun _ => ?_, fun _ => broken_of_fault hl (.refused _ rfl)⟩
  cases hlive : c.streams.lookup sid with
  | none =>
    apply pushEvent_follows
    have hreceive := Calm.receive (.windowUpdate sid increment) ⟨hsid, hlive⟩
    exact .calm (.single hreceive hl) (.notify _ rfl) trivial
  | some s =>
    obtain ⟨_, htidy⟩ := ht.streams _ _ hlive
    simp only [htidy.notClosed, Bool.false_eq_true, if_false]
    cases hflow : s.flowControl.recvWindowUpdate increment with
    | error e =>
      refine reset_follows hsid hlive ?_
      exact .single (.overflow sid increment hsid hlive hflow) hl
    | ok fc =>
      obtain ⟨⟨_, hmax⟩, rfl⟩ := FlowControl.recvWindowUpdate_eq_ok.1 hflow
      have hwake := Wake.updateStream sid increment hsid hlive hmax
      simp only [ensures_bind, ensures_update, setCore_toCore]
      apply ensures_mono (flushAndRemove_spec sid (wake_tidy ht hwake))
      rintro r c' ⟨rfl, hemits, hdrained⟩
      apply pushEvent_follows
      exact .calm (.wake .refl hwake hl hemits fun sid' hsid' => hsid' ▸ hdrained) (.notify _ rfl) trivial

theorem handleWindowUpdate_follows {T : Terms} {c : Connection} (it : IterOrder) (sid increment : Nat)
    (ht : Tidy c.toCore)
    (hl : T.Meets c.toCore (.frame (.windowUpdate sid increment))) :
    Ensures (handleWindowUpdate it sid increment)
      (c.setCore (c.toCore.log (.received (.windowUpdate sid increment)))) (Follows T c.toCore) := by
  unfold handleWindowUpdate
  by_cases hsid : sid = 0
  · subst hsid
    simp only [if_true, ensures_bind, ensures_get, ensures_lift, ensures_update, setCore_toCore,
      Core.log_flowControl]
    cases hflow : c.flowControl.recvWindowUpdate increment with
    | error e => exact broken_of_fault hl (.refused _ (recvWindowUpdate_plain hflow))
    | ok fc =>
      obtain ⟨⟨_, hmax⟩, rfl⟩ := FlowControl.recvWindowUpdate_eq_ok.1 hflow
      have hwake := Wake.update increment hmax
      simp only
      apply ensures_mono (flushAllStreamData_spec it (wake_tidy ht hwake))
      rintro r c' ⟨rfl, hemits, hdrained⟩
      apply pushEvent_follows
      exact .calm (.wake .refl hwake hl hemits fun sid' _ => hdrained sid') (.notify _ rfl) trivial
  · rw [if_neg hsid]
    exact handleStreamWindowUpdate_follows increment hsid ht hl

theorem handlePing_follows {T : Terms} {c : Connection} (ack : Bool) (opaqueData : Bytes)
    (hl : T.Meets c.toCore (.frame (.ping ack opaqueData))) :
    Ensures (handlePing ack opaqueData)
      (c.setCore (c.toCore.log (.received (.ping ack opaqueData)))) (Follows T c.toCore) := by
  have hreceive := Chain.single (Calm.receive (c := c.toCore) (.ping ack opaqueData) trivial) hl
  simp only [handlePing]
  cases ack with
  | true =>
    simp only [if_true, ensures_pushEvent]
    exact .calm hreceive (.notify (.pingReceived opaqueData true) rfl) trivial
  | false =>
    have hpong := Chain.calm hreceive (.pong opaqueData) trivial
    simp only [Bool.false_eq_true, if_false, ensures_bind]
    rw [ensures_sendFrame rfl]
    exact .calm hpong (.notify (.pingReceived opaqueData false) rfl) trivial

theorem handleGoaway_follows {T : Terms} {c : Connection} (f : GoawayFrame)
    (hl : T.Meets c.toCore (.frame (.goaway f))) :
    Ensures (handleGoaway f) (c.setCore (c.toCore.log (.received (.goaway f)))) (Follows T c.toCore) :=
  .single (.peerGoaway f) hl

theorem handlePriorityUpdate_follows {T : Terms} {c : Connection} (sid : Nat) (value : Bytes)
    (hl : T.Meets c.toCore (.frame (.priorityUpdate sid value))) :
    Ensures (handlePriorityUpdate sid value)
      (c.setCore (c.toCore.log (.received (.priorityUpdate sid value)))) (Follows T c.toCore) := by
  simp only [handlePriorityUpdate, ensures_bind, ensures_get, ensures_require]
  refine ⟨fun _ => ⟨fun _ => ?_, fun _ => broken_of_fault hl (.refused _ rfl)⟩,
    fun _ => broken_of_fault hl (.refused _ rfl)⟩
  have hreceive := Chain.single (Calm.receive (c := c.toCore) (.priorityUpdate sid value) trivial) hl
  exact .calm hreceive (.notify (.priorityUpdateReceived sid value) rfl) trivial

theorem handleUnknown_follows {T : Terms} {c : Connection} (header : FrameHeader) (payload : Bytes)
    (hl : T.Meets c.toCore (.frame (.unknown header payload))) :
    Ensures (handleUnknown header.streamId)
      (c.setCore (c.toCore.log (.received (.unknown header payload)))) (Follows T c.toCore) := by
  have hreceive : Chain T c.toCore (c.toCore.log (.received (.unknown header payload))) :=
    .single (.receive _ trivial) hl
  simp only [handleUnknown, ensures_bind, ensures_get, setCore_toCore, Core.stream?_eq,
    Core.log_streams]
  cases hlive : c.streams.lookup header.streamId with
  | none => exact hreceive
  | some s =>
    simp only [ensures_ite]
    refine ⟨fun htunnel => ?_, fun _ => hreceive⟩
    refine reset_follows htunnel.1 hlive ?_
    exact .single (.tunnel header payload htunnel.1 hlive) hl

/-! ## SETTINGS -/

/-- The error of a step over parameters or streams, if it failed. -/
def Plainly (r : Except Error Unit) : Prop := ∀ e, r = .error e → e.plain = true

theorem plainly_ok : Plainly (.ok ()) := by
  intro e h
  cases h

theorem applySetting_spec (setting : Setting) (c : Connection) :
    Ensures (applySetting setting) c fun r c' => Plainly r ∧
      c'.toCore = { c.toCore with
        remoteSettings := if r = .ok () then c.remoteSettings.apply setting else c.remoteSettings } := by
  have hfail : ∀ reason, Plainly (.error (.connectionError .protocolError reason)) := by
    rintro reason _ ⟨rfl⟩
    rfl
  simp only [applySetting, ensures_bind, ensures_get, ensures_require]
  refine ⟨fun _ => ?_, fun _ => ⟨hfail _, rfl⟩⟩
  cases setting with
  | noRfc7540Priorities value =>
    simp only
    cases c.initialNoRfc7540Priorities with
    | none => exact ⟨plainly_ok, rfl⟩
    | some initial =>
      simp only [ensures_bind, ensures_require]
      exact ⟨fun _ => ⟨plainly_ok, rfl⟩, fun _ => ⟨hfail _, rfl⟩⟩
  | enableConnectProtocol value =>
    simp only [ensures_ite, ensures_bind, ensures_require]
    exact ⟨fun _ => ⟨plainly_ok, rfl⟩, fun _ => ⟨fun _ => ⟨plainly_ok, rfl⟩, fun _ => ⟨hfail _, rfl⟩⟩⟩
  | _ => exact ⟨plainly_ok, rfl⟩

theorem applySettings_spec (settings : List Setting) (c : Connection) :
    Ensures (applySettings settings) c fun r c' => Plainly r ∧
      ∃ remote, c'.toCore = { c.toCore with remoteSettings := remote } ∧
        (r = .ok () → remote = settings.foldl Settings.apply c.remoteSettings) := by
  induction settings generalizing c with
  | nil => exact ⟨plainly_ok, c.remoteSettings, rfl, fun _ => rfl⟩
  | cons setting settings ih =>
    simp only [applySettings, ensures_bind]
    apply ensures_mono (applySetting_spec setting c)
    rintro r c' ⟨hplain, hc'⟩
    cases r with
    | ok u =>
      rw [if_pos rfl] at hc'
      apply ensures_mono (ih c')
      rintro r c'' ⟨hplain', remote, hc'', hremote⟩
      refine ⟨hplain', remote, by rw [hc'', hc'], fun hok => ?_⟩
      rw [hremote hok, hc']
      rfl
    | error e => exact ⟨hplain, c.remoteSettings, hc', by simp⟩

/-- A record keeps everything but its windows. -/
def Rewindowed (c : Core) (streams : AList fun _ : Nat => Stream) (size : Nat) (sids : List Nat)
    (ok : Prop) : Prop :=
  ∀ sid, (c.streams.lookup sid = none ∧ streams.lookup sid = none) ∨
    ∃ s fc, c.streams.lookup sid = some s ∧ streams.lookup sid = some { s with flowControl := fc } ∧
      (fc = s.flowControl ∨ s.flowControl.updateInitialWindowSize size = .ok fc) ∧
      (sid ∉ sids → fc = s.flowControl) ∧
      (ok → sid ∈ sids → s.flowControl.updateInitialWindowSize size = .ok fc)

theorem rewindowed_refl (c : Core) (size : Nat) {sids : List Nat} {ok : Prop}
    (h : ok → ∀ sid ∈ sids, c.streams.lookup sid = none) : Rewindowed c c.streams size sids ok := by
  intro sid
  cases hlive : c.streams.lookup sid with
  | none => exact .inl ⟨rfl, rfl⟩
  | some s =>
    refine .inr ⟨s, s.flowControl, rfl, rfl, .inl rfl, fun _ => rfl, fun hok hin => ?_⟩
    cases hlive.symm.trans (h hok sid hin)

theorem updateStreamWindows_spec (size : Nat) (sids : List Nat) (hnodup : sids.Nodup)
    (c : Connection) :
    Ensures (updateStreamWindows size sids) c fun r c' => Plainly r ∧
      ∃ streams, c'.toCore = { c.toCore with streams := streams } ∧
        Rewindowed c.toCore streams size sids (r = .ok ()) := by
  induction sids generalizing c with
  | nil => exact ⟨plainly_ok, c.streams, rfl, rewindowed_refl _ _ (by simp)⟩
  | cons sid₀ sids ih =>
    obtain ⟨hnotin, hnodup'⟩ := List.nodup_cons.1 hnodup
    simp only [updateStreamWindows, ensures_bind, ensures_get, Core.stream?_eq]
    cases hlive₀ : c.streams.lookup sid₀ with
    | none =>
      apply ensures_mono (ih hnodup' c)
      rintro r c' ⟨hplain, streams, hc', hmap⟩
      refine ⟨hplain, streams, hc', fun sid => ?_⟩
      obtain hnone | ⟨s, fc, hlive, hnew, hturned, hout, hin⟩ := hmap sid
      · exact .inl hnone
      · refine .inr ⟨s, fc, hlive, hnew, hturned, fun hsid => hout (by simp_all),
          fun hok hsid => ?_⟩
        obtain rfl | hsid := List.mem_cons.1 hsid
        · cases hlive₀.symm.trans hlive
        · exact hin hok hsid
    | some s₀ =>
      simp only [ensures_bind, ensures_lift]
      cases hflow : s₀.flowControl.updateInitialWindowSize size with
      | error e =>
        refine ⟨?_, c.streams, rfl, rewindowed_refl _ _ (by simp)⟩
        rintro _ ⟨rfl⟩
        exact updateInitialWindowSize_plain hflow
      | ok fc₀ =>
        simp only [ensures_update]
        apply ensures_mono (ih hnodup' _)
        rintro r c' ⟨hplain, streams, hc', hmap⟩
        refine ⟨hplain, streams, hc', fun sid => ?_⟩
        have hsid := hmap sid
        simp only [setCore_toCore, Core.putStream_streams, lookup_insert_ite] at hsid
        by_cases heq : sid = sid₀
        · subst heq
          -- The rest of the list leaves the record alone that was just written.
          simp only [if_true, reduceCtorEq, false_and, false_or, Option.some.injEq] at hsid
          obtain ⟨s, fc, rfl, hnew, _, hout, _⟩ := hsid
          have hfc : fc = fc₀ := hout hnotin
          subst hfc
          exact .inr ⟨s₀, fc, hlive₀, hnew, .inr hflow,
            fun h => absurd (List.mem_cons_self ..) h, fun _ _ => hflow⟩
        · simp only [heq, if_false] at hsid
          obtain hnone | ⟨s, fc, hlive, hnew, hturned, hout, hin⟩ := hsid
          · exact .inl hnone
          · refine .inr ⟨s, fc, hlive, hnew, hturned, fun h => hout (by simp_all),
              fun hok hmem => ?_⟩
            obtain h | h := List.mem_cons.1 hmem
            · exact absurd h heq
            · exact hin hok h

/-- Every live stream is among the keys, in whatever order they come. -/
theorem retuned_of_rewindowed {c : Core} {size : WindowSize} {streams : AList fun _ : Nat => Stream}
    {sids : List Nat} (hperm : sids.Perm c.streams.keys)
    (hsize : size ≠ c.remoteSettings.initialWindowSize) (h : Rewindowed c streams size sids True) :
    c.Retuned size streams := by
  refine .inr ⟨hsize, fun sid => ?_⟩
  obtain hnone | ⟨s, fc, hlive, hnew, _, _, hin⟩ := h sid
  · exact .inl hnone
  · have hmem : sid ∈ sids := by
      rw [hperm.mem_iff, ← AList.mem_keys, ← AList.lookup_isSome]
      simp [hlive]
    exact .inr ⟨s, fc, hlive, hin trivial hmem, hnew⟩

theorem settleSettings_spec {c₀ : Core} {c : Connection} (it : IterOrder) (f : SettingsFrame)
    (hc : c.toCore = { c₀ with
      remoteSettings := f.settings.foldl Settings.apply c₀.remoteSettings }.log
        (.received (.settings f)))
    (hack : f.ack = false) :
    Ensures (settleSettings it c₀.remoteSettings) c fun r c' =>
      match r with
      | .ok _ => ∃ streams,
        c'.toCore = (c₀.log (.received (.settings f))).applyRemote f.settings streams ∧
          c₀.Retuned (f.settings.foldl Settings.apply c₀.remoteSettings).initialWindowSize streams
      | .error e => Fault c₀ e (.frame (.settings f)) c'.toCore := by
  simp only [settleSettings, ensures_bind, ensures_modify, ensures_update, ensures_get, setCore_toCore,
    ensures_ite]
  rw [hc]
  simp only [Core.log_remoteSettings]
  constructor
  · intro hsize
    have hperm := it.perm ((Item.received (.settings f)) :: c₀.trace).length c₀.streams.keys
    apply ensures_mono
    · apply updateStreamWindows_spec
      exact hperm.nodup_iff.2 c₀.streams.keys_nodup
    rintro r c' ⟨hplain, streams, hc', hmap⟩
    cases r with
    | error e =>
      rw [setCore_toCore] at hc'
      rw [hc']
      refine .settings f _ _ streams (hplain e rfl) (fun sid => ?_) hack fun sid s s' hold hnew => ?_
      · obtain hnone | ⟨s, fc, hlive, hnew, _⟩ := hmap sid
        · exact .inl hnone
        · exact .inr ⟨s, fc, hlive, hnew⟩
      · obtain ⟨hnone, _⟩ | ⟨s₀, fc, hlive, hput, hturned, _⟩ := hmap sid
        · cases hnone.symm.trans hold
        · obtain rfl := Option.some.inj (hlive.symm.trans hold)
          obtain rfl := Option.some.inj (hput.symm.trans hnew)
          exact hturned
    | ok u =>
      refine ⟨streams, ?_, retuned_of_rewindowed hperm hsize ?_⟩
      · simp only [setCore_toCore, hc']
        rfl
      · simpa only [true_implies] using! hmap
  · intro hsize
    refine ⟨c₀.streams, rfl, .inl ⟨by simpa using hsize, rfl⟩⟩

theorem handleSettingsAck_follows {T : Terms} {c : Connection} (f : SettingsFrame) (hack : f.ack = true)
    (hl : T.Meets c.toCore (.frame (.settings f))) :
    Ensures handleSettingsAck (c.setCore (c.toCore.log (.received (.settings f))))
      (Follows T c.toCore) := by
  simp only [handleSettingsAck, ensures_bind, ensures_get, ensures_require, ensures_modify,
    ensures_update, ensures_pushEvent]
  refine ⟨fun _ => ?_, fun _ => broken_of_fault hl (.refused _ rfl)⟩
  have hreceive := Chain.single (Calm.receive (c := c.toCore) (.settings f) hack) hl
  have hnotice : (Event.settingsReceived true).isNotice = true := rfl
  by_cases hwaiting : c.state = .waitingPreface
  · simp only [setCore_toCore, Core.log_state, hwaiting, if_true]
    exact .calm (.calm hreceive (.activate hwaiting) trivial) (.notify _ hnotice) trivial
  · simp only [setCore_toCore, Core.log_state, hwaiting, if_false]
    exact .calm hreceive (.notify _ hnotice) trivial

theorem handleSettings_follows {T : Terms} {c : Connection} (it : IterOrder) (f : SettingsFrame)
    (ht : Tidy c.toCore)
    (hl : T.Meets c.toCore (.frame (.settings f))) :
    Ensures (handleSettings it f) (c.setCore (c.toCore.log (.received (.settings f))))
      (Follows T c.toCore) := by
  unfold handleSettings
  by_cases hack : f.ack = true
  · rw [if_pos hack]
    exact handleSettingsAck_follows f hack hl
  rw [if_neg hack]
  have hnot : f.ack = false := by simpa using hack
  simp only [ensures_bind, ensures_get, setCore_toCore, Core.log_remoteSettings]
  apply ensures_mono (applySettings_spec f.settings _)
  rintro r c₁ ⟨hplain, remote, hc₁, hremote⟩
  cases r with
  | error e =>
    refine broken_of_fault hl ?_
    rw [hc₁]
    refine .settings f remote c.pendingTableSizeUpdate c.streams (hplain e rfl) (fun sid => ?_) hnot
      fun sid s s' hold hnew => .inl ?_
    · cases hlive : c.streams.lookup sid with
      | none => exact .inl ⟨rfl, rfl⟩
      | some s => exact .inr ⟨s, s.flowControl, rfl, rfl⟩
    · rw [Option.some.inj (hold.symm.trans hnew)]
  | ok u =>
    obtain rfl := hremote rfl
    simp only
    apply ensures_mono (settleSettings_spec it f hc₁ hnot)
    intro r c₂ hr
    cases r with
    | error e => exact broken_of_fault hl hr
    | ok u =>
      obtain ⟨streams, hc₂, hstreams⟩ := hr
      have hwake := Wake.settings f streams hnot hstreams
      simp only
      rw [ensures_sendFrame rfl]
      have ht₂ := wake_tidy ht hwake
      rw [← hc₂] at hwake ht₂
      apply ensures_mono (flushAllStreamData_spec it ht₂)
      rintro r c₃ ⟨rfl, hemits, hdrained⟩
      have hsettled := Chain.wake .refl hwake hl hemits fun sid _ => hdrained sid
      have hnotified := Chain.calm hsettled (.notify (.settingsReceived false) rfl) trivial
      simp only [ensures_pushEvent, ensures_ite]
      refine ⟨fun hwaiting => ?_, fun _ => hnotified⟩
      exact .calm (.calm hnotified (.activate hwaiting) trivial) (.notify .connectionPreface rfl)
        trivial

end Http2
