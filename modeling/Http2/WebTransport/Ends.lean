import Http2.WebTransport.Slots

/-! How the receive sides of the peer's streams end: the end of each is reported once, and nothing is
taken on it afterwards. The limits that a session keeps for its peer are those that it announced. -/
namespace Http2.WebTransport

open Lib Lib.Prog WtSession

/-- The stream whose receive side an event ends. -/
def WtEvent.ended? : WtEvent → Option Nat
  | .streamData id _ true => some id
  | .streamReset id _ => some id
  | _ => none

def endings (es : List WtEvent) : List Nat := es.filterMap WtEvent.ended?

/-- The limit on streams that a capsule announces, with its direction. -/
def Capsule.limit? : Capsule → Option (Nat × Bool)
  | .wtMaxStreams maximum bidirectional => some (maximum, bidirectional)
  | _ => none

def limits (cs : List Capsule) : List (Nat × Bool) := cs.filterMap Capsule.limit?

/-- Nothing more arrives on a stream that is known. -/
def Slot.Done : Slot → Prop
  | .unknown => False
  | .live s => s.recvState ≠ .recv
  | .closed _ => True

@[simp] theorem endings_cons_none {e : WtEvent} {es : List WtEvent} (h : e.ended? = none) :
    endings (e :: es) = endings es := List.filterMap_cons_none h

@[simp] theorem endings_cons_some {e : WtEvent} {es : List WtEvent} {id : Nat}
    (h : e.ended? = some id) : endings (e :: es) = id :: endings es := List.filterMap_cons_some h

@[simp] theorem limits_cons_none {c : Capsule} {cs : List Capsule} (h : c.limit? = none) :
    limits (c :: cs) = limits cs := List.filterMap_cons_none h

/-! ## The calls -/

/-- Nothing is reported, and no limit on streams is announced. -/
structure Quiet (s s' : WtSession) : Prop where
  notified : s'.notified = s.notified
  events : s'.events = s.events
  announced : limits s'.sent = limits s.sent

section Calls

variable {s s' : WtSession}

theorem Quiet.refl (s : WtSession) : Quiet s s := ⟨rfl, rfl, rfl⟩

theorem Quiet.of_refused {α : Type} {r : WtResult α} (h : Refused s r s') : Quiet s s' := by
  obtain ⟨e, -, rfl⟩ := h
  exact .refl _

theorem Quiet.of_sends {c : Capsule} {b : Book} (hc : c.limit? = none)
    (hsent : b.sent = c :: s.sent) (hnotified : b.notified = s.notified) : Quiet s (s.sends c b) := by
  refine ⟨hnotified, rfl, ?_⟩
  change limits b.sent = _
  rw [hsent, limits_cons_none hc]

/-- The calls that may raise the limit on the peer's streams. -/
def WtCall.raisesStreams : WtCall → Bool
  | .sendMaxStreams _ _ | .growMaxStreams _ _ => true
  | _ => false

theorem send_quiet (hfc : s.flowControl.sendOffset ≤ s.flowControl.sendMax) {call : WtCall}
    (hsend : call.isSend = true) (hraises : call.raisesStreams = false) :
    Ensures call.exec s fun _ s' => Quiet s s' := by
  cases call with
  | initiate | feed _ | process | pollOutput | pollEvent => cases hsend
  | sendMaxStreams | growMaxStreams => cases hraises
  | openBidiStream | openUniStream =>
    refine ensures_return.2 (ensures_mono (openStream_spec s _) fun r s' h => ?_)
    obtain hrefused | ⟨-, -, -, rfl⟩ := h
    · exact .of_refused hrefused
    · exact ⟨rfl, rfl, rfl⟩
  | sendStreamData id data fin =>
    refine ensures_return.2 (ensures_mono (sendStreamData_spec hfc id data fin) fun r s' h => ?_)
    obtain hrefused | ⟨-, -, b, ⟨_, _, _, -, -, -, -, -, rfl⟩, rfl⟩ := h
    · exact .of_refused hrefused
    · exact .of_sends rfl Book.settle_sent Book.settle_notified
  | resetStream id errorCode =>
    refine ensures_return.2 (ensures_mono (WtSession.resetStream_spec s id errorCode) fun r s' h => ?_)
    obtain ⟨-, hrefused⟩ | ⟨-, -, stream, -, -, -, rfl⟩ := h
    · exact .of_refused hrefused
    · exact .of_sends rfl Book.settle_sent Book.settle_notified
  | stopSending id errorCode =>
    refine ensures_return.2 (ensures_mono (stopSending_spec s id errorCode) fun r s' h => ?_)
    obtain ⟨-, hrefused⟩ | ⟨-, -, stream, -, -, -, -, rfl⟩ := h
    · exact .of_refused hrefused
    · exact .of_sends rfl rfl rfl
  | sendDatagram data =>
    refine ensures_return.2 (ensures_mono (sendDatagram_spec s data) fun r s' h => ?_)
    obtain hrefused | ⟨-, -, rfl⟩ := h
    · exact .of_refused hrefused
    · exact .of_sends rfl rfl rfl
  | close errorCode reason =>
    refine ensures_return.2 (ensures_mono (close_spec s errorCode reason) fun r s' h => ?_)
    obtain ⟨-, hrefused⟩ | ⟨-, -, rfl⟩ := h
    · exact .of_refused hrefused
    · exact ⟨rfl, rfl, rfl⟩
  | sendMaxData maximum =>
    refine ensures_return.2 (ensures_mono (sendMaxData_spec s maximum) fun r s' h => ?_)
    obtain ⟨-, hrefused⟩ | ⟨-, -, rfl⟩ := h
    · exact .of_refused hrefused
    · exact .of_sends rfl rfl rfl
  | sendMaxStreamData id maximum =>
    refine ensures_return.2 (ensures_mono (sendMaxStreamData_spec s id maximum) fun r s' h => ?_)
    obtain ⟨-, hrefused⟩ | ⟨-, -, stream, -, -, -, -, -, rfl⟩ := h
    · exact .of_refused hrefused
    · exact .of_sends rfl rfl rfl
  | growRecvWindow increment =>
    refine ensures_return.2 (ensures_mono (growRecvWindow_spec s increment) fun r s' h => ?_)
    obtain ⟨-, hrefused⟩ | ⟨-, -, rfl⟩ := h
    · exact .of_refused hrefused
    · exact .of_sends rfl rfl rfl
  | growStreamRecvWindow id increment =>
    refine ensures_return.2
      (ensures_mono (growStreamRecvWindow_spec s id increment) fun r s' h => ?_)
    obtain ⟨-, hrefused⟩ | ⟨-, stream, maximum, -, -, -, -, -, -, -, rfl⟩ := h
    · exact .of_refused hrefused
    · exact .of_sends rfl rfl rfl
  | drain =>
    refine ensures_return.2 (ensures_mono (drain_spec s) fun r s' h => ?_)
    obtain hrefused | ⟨-, -, rfl⟩ := h
    · exact .of_refused hrefused
    · exact ⟨rfl, rfl, rfl⟩

/-- The calls that take nothing in and raise no limit on streams. -/
theorem exec_quiet (hfc : s.flowControl.sendOffset ≤ s.flowControl.sendMax) {call : WtCall}
    (hprocess : call ≠ .process) (hpoll : call ≠ .pollEvent) (hraises : call.raisesStreams = false) :
    Quiet s (call.exec s).2 := by
  cases hsend : call.isSend with
  | true => exact send_quiet hfc hsend hraises
  | false =>
    cases call with
    | process => exact absurd rfl hprocess
    | pollEvent => exact absurd rfl hpoll
    | initiate =>
      have hspec : Ensures (WtCall.exec .initiate) s fun _ s' => Quiet s s' := by
        refine ensures_return.2 (ensures_mono (initiate_spec s) fun r s' h => ?_)
        obtain hrefused | ⟨-, -, rfl⟩ := h
        · exact .of_refused hrefused
        · exact ⟨rfl, rfl, rfl⟩
      exact hspec
    | feed data =>
      have hspec : Ensures (WtCall.exec (.feed data)) s fun _ s' => Quiet s s' := by
        refine ensures_return.2 (?_ : Ensures (WtSession.feed data) s _)
        simp only [WtSession.feed, ensures_bind, ensures_get, ensures_lift]
        cases s.capsuleDecoder.feed data with
        | error e => exact .refl _
        | ok d => exact ⟨rfl, rfl, rfl⟩
      exact hspec
    | pollOutput =>
      have hspec : Ensures (WtCall.exec .pollOutput) s fun _ s' => Quiet s s' := by
        refine ensures_return.2 (?_ : Ensures WtSession.pollOutput s _)
        simp only [WtSession.pollOutput, ensures_bind, ensures_get, ensures_ite, ensures_pure]
        exact ⟨fun _ => .refl _, fun _ => ⟨rfl, rfl, rfl⟩⟩
      exact hspec
    | _ => cases hsend

end Calls

/-! ## What ends no stream and announces no limit -/

/-- The ends that a session reported and the limits that it announced. -/
def WtSession.credit (s : WtSession) : List Nat × List (Nat × Bool) :=
  (endings s.notified, limits s.sent)

namespace WtSession

theorem update_credit {g : Book → Book}
    (h : ∀ b, (g b).notified = b.notified ∧ (g b).sent = b.sent) : Prog.Keeps credit (update g) := by
  intro s
  obtain ⟨hnotified, hsent⟩ := h s.toBook
  change (endings (g s.toBook).notified, limits (g s.toBook).sent) = s.credit
  rw [hnotified, hsent]
  rfl

theorem notify_credit {e : WtEvent} (h : e.ended? = none) : Prog.Keeps credit (notify e) := by
  intro s
  change (endings (e :: s.notified), limits s.sent) = s.credit
  rw [endings_cons_none h]
  rfl

theorem createPeerStream_credit (id : Nat) (bidirectional : Bool) :
    Prog.Keeps credit (createPeerStream id bidirectional) := by
  unfold createPeerStream
  apply keeps_bind keeps_get
  intro s
  apply keeps_bind
  · exact update_credit fun _ => ⟨rfl, rfl⟩
  · intro _
    exact notify_credit rfl

theorem createMissing_credit (bidirectional : Bool) (n id : Nat) :
    Prog.Keeps credit (createMissing bidirectional n id) := by
  induction n generalizing id with
  | zero => exact keeps_pure
  | succ n ih =>
    unfold createMissing
    apply keeps_bind keeps_get
    intro s
    exact keeps_when (createPeerStream_credit id bidirectional) (ih (StreamId.next id))

theorem createPeerStreamsUpTo_credit (id : Nat) (bidirectional : Bool) :
    Prog.Keeps credit (createPeerStreamsUpTo id bidirectional) := by
  unfold createPeerStreamsUpTo
  apply keeps_bind keeps_get
  intro s
  apply keeps_bind keeps_require
  intro _
  exact createMissing_credit bidirectional _ _

theorem createImplicitPeerBidiStream_credit (id : Nat) :
    Prog.Keeps credit (createImplicitPeerBidiStream id) := by
  unfold createImplicitPeerBidiStream
  apply keeps_bind keeps_get
  intro s
  exact keeps_ite (createPeerStreamsUpTo_credit id true) keeps_pure

theorem admitStreamData_credit (id : Nat) (data : Bytes) (fin : Bool) :
    Prog.Keeps credit (admitStreamData id data fin) := by
  unfold admitStreamData
  apply keeps_bind keeps_get
  intro s
  apply keeps_bind keeps_require
  intro _
  apply keeps_bind keeps_require
  intro _
  apply keeps_ite
  · apply keeps_bind keeps_require
    intro _
    exact createPeerStreamsUpTo_credit id _
  · exact keeps_require

theorem requireSender_credit (id : Nat) (receiveOnly uncreated stopped : String) :
    Prog.Keeps credit (requireSender id receiveOnly uncreated stopped) := by
  unfold requireSender
  apply keeps_bind keeps_get
  intro s
  apply keeps_bind keeps_require
  intro _
  apply keeps_bind keeps_require
  intro _
  exact keeps_require

theorem recordStopSending_logs (b : Book) (id : Nat) :
    (recordStopSending b id).notified = b.notified ∧ (recordStopSending b id).sent = b.sent :=
  ⟨recordStopSending_notified b id, recordStopSending_sent b id⟩

theorem resetStream_credit (id errorCode : Nat) : Prog.Keeps credit (resetStream id errorCode) := by
  intro s
  have hspec := WtSession.resetStream_spec s id errorCode
  unfold Ensures at hspec
  obtain ⟨-, e, -, hsame⟩ | ⟨-, -, stream, -, -, -, hsame⟩ := hspec
  · rw [hsame]
  · rw [hsame]
    change (endings (Resets s.toBook id errorCode stream).notified,
      limits (Resets s.toBook id errorCode stream).sent) = s.credit
    simp only [Resets, Book.settle_notified, Book.settle_sent, Book.logSent]
    rfl

theorem handleStopSending_credit (id errorCode : Nat) :
    Prog.Keeps credit (handleStopSending id errorCode) := by
  have hattempt : Prog.Keeps credit (attempt (resetStream id errorCode)) :=
    fun s => resetStream_credit id errorCode s
  unfold handleStopSending
  apply keeps_bind (requireSender_credit id _ _ _)
  intro _
  apply keeps_bind (createImplicitPeerBidiStream_credit id)
  intro _
  apply keeps_bind keeps_get
  intro s
  apply keeps_bind (update_credit fun b => recordStopSending_logs b id)
  intro _
  exact keeps_when hattempt (notify_credit rfl)

theorem handleMaxStreamData_credit (id maximum : Nat) :
    Prog.Keeps credit (handleMaxStreamData id maximum) := by
  unfold handleMaxStreamData
  apply keeps_bind (requireSender_credit id _ _ _)
  intro _
  apply keeps_bind keeps_get
  intro s
  apply keeps_when keeps_require
  split
  · apply keeps_bind keeps_require
    intro _
    exact update_credit fun _ => ⟨rfl, rfl⟩
  · apply keeps_bind (createImplicitPeerBidiStream_credit id)
    intro _
    apply keeps_bind keeps_get
    intro s
    split
    · apply keeps_bind keeps_lift
      intro stream
      exact update_credit fun _ => ⟨rfl, rfl⟩
    · exact keeps_pure

/-- A limit of the peer is taken into the flow control. -/
theorem setFlow_credit (r : WtSession → WtResult WtFlowControl) :
    Prog.Keeps credit (do
      let s ← get
      let fc ← lift (r s)
      update (·.setFlow fc)) := by
  apply keeps_bind keeps_get
  intro s
  apply keeps_bind keeps_lift
  intro fc
  exact update_credit fun _ => ⟨rfl, rfl⟩

theorem handleStreamDataBlocked_credit (id : Nat) : Prog.Keeps credit (handleStreamDataBlocked id) := by
  unfold handleStreamDataBlocked receivingStream
  refine keeps_bind (keeps_bind keeps_get fun s => ?_) fun _ => keeps_pure
  split
  · exact keeps_throw
  · exact keeps_bind keeps_require fun _ => keeps_pure

theorem handleDrainSession_credit : Prog.Keeps credit handleDrainSession := by
  unfold handleDrainSession
  apply keeps_bind keeps_get
  intro s
  apply keeps_ite
  · apply keeps_bind fun _ => rfl
    intro _
    exact notify_credit rfl
  · exact keeps_pure

/-- The capsules that may end the receive side of a stream. -/
def mayEnd : Capsule → Bool
  | .wtStream _ _ _ | .wtResetStream _ _ _ => true
  | _ => false

theorem dispatch_credit {c : Capsule} (h : mayEnd c = false) : Prog.Keeps credit (dispatch c) := by
  cases c with
  | wtStream | wtResetStream => cases h
  | datagram data => exact notify_credit rfl
  | wtStopSending id errorCode => exact handleStopSending_credit id errorCode
  | wtMaxData maximum => exact setFlow_credit fun s => s.flowControl.updateSendMax maximum
  | wtMaxStreamData id maximum => exact handleMaxStreamData_credit id maximum
  | wtMaxStreams maximum bidirectional =>
    exact setFlow_credit fun s => s.flowControl.updateMaxStreams maximum bidirectional
  | wtStreamDataBlocked id => exact handleStreamDataBlocked_credit id
  | wtStreamsBlocked maximum => exact keeps_require
  | wtCloseSession errorCode reason =>
    apply keeps_bind fun _ => rfl
    intro _
    exact notify_credit rfl
  | wtDrainSession => exact handleDrainSession_credit
  | wtDataBlocked | padding | unknown => exact keeps_pure

end WtSession

/-! ## What ends a stream -/

section Ending

variable {s s' : WtSession} {id : Nat} {data : Bytes} {fin : Bool}

/-- A failure reports no end, a success is reported by the event. -/
def Reports (s : WtSession) (e : WtEvent) (r : WtResult Unit) (s' : WtSession) : Prop :=
  match r with
  | .ok _ => s'.credit = (endings (e :: s.notified), limits s.sent)
  | .error _ => s'.credit = s.credit

theorem endings_cons_congr {e : WtEvent} {es es' : List WtEvent} (h : endings es = endings es') :
    endings (e :: es) = endings (e :: es') := by
  unfold endings at h ⊢
  rw [List.filterMap_cons, List.filterMap_cons, h]

theorem handleStreamData_credit (s : WtSession) (id : Nat) (data : Bytes) (fin : Bool) :
    Ensures (handleStreamData id data fin) s (Reports s (.streamData id data fin)) := by
  simp only [handleStreamData, ensures_bind]
  refine ensures_mono ((admitStreamData_credit id data fin).ensures s) fun r s₁ h => ?_
  cases r with
  | error e => exact h
  | ok u =>
    simp only [ensures_findStream, ensures_lift]
    refine ⟨fun stream _ => ?_, fun _ => h⟩
    cases stream.recvData data.length fin with
    | error e => exact h
    | ok stream =>
      -- whether the record notes the data or not, the flow control comes next
      have hrest : ∀ s₂ : WtSession, s₂.credit = s₁.credit → Ensures (do
          let s ← get
          let fc ← lift (s.flowControl.consumeRecv data.length)
          update (·.setFlow fc)
          notify (.streamData id data fin)) s₂ (Reports s (.streamData id data fin)) := by
        intro s₂ hsame
        simp only [ensures_bind, ensures_get, ensures_lift]
        cases s₂.flowControl.consumeRecv data.length with
        | error e => exact hsame.trans h
        | ok fc =>
          obtain ⟨hends, hlimits⟩ := Prod.mk.inj (hsame.trans h)
          exact Prod.ext (endings_cons_congr hends) hlimits
      simp only [ensures_updateBook]
      split
      · rw [ensures_bind, ensures_updateBook]
        exact hrest _ rfl
      · exact hrest _ rfl

theorem recvState_noteData (stream : WtStream) (data : Bytes) :
    (noteData stream data).recvState = stream.recvState := by
  unfold noteData
  split <;> rfl

/-- One stream at most ends in a step: it was open before, and is done after. -/
def Ended (s s' : WtSession) : Prop :=
  endings s'.notified = endings s.notified ∨
    ∃ id, endings s'.notified = id :: endings s.notified ∧ ¬ (s.slot id).Done ∧ (s'.slot id).Done

theorem Ended.of_credit (h : s'.credit = s.credit) : Ended s s' := .inl (Prod.mk.inj h).1

/-- A stream that takes data was not done. -/
theorem open_of_admits (hadmits : Admits s.toBook id data fin) {stream : WtStream}
    (hrecv : (s.streamFor id).recvData data.length fin = .ok stream) : ¬ (s.slot id).Done := by
  obtain ⟨hcan, -, -⟩ := WtStream.recvData_eq_ok hrecv
  cases hlive : s.stream? id with
  | none =>
    have hunknown : s.slot id = .unknown := unknown_iff.1 ⟨by simp [hlive], hadmits.1⟩
    rw [hunknown]
    intro hdone
    exact hdone
  | some stream₀ =>
    have hsame : s.streamFor id = stream₀ := by simp [Book.streamFor, hlive]
    rw [Book.slot_eq_live.2 hlive]
    intro hdone
    exact hdone (WtStream.recvState_of_canRecv (hsame ▸ hcan))

theorem handleStreamData_ended (s : WtSession) (id : Nat) (data : Bytes) (fin : Bool) :
    Ensures (handleStreamData id data fin) s fun _ s' => limits s'.sent = limits s.sent ∧ Ended s s' := by
  refine ensures_mono (ensures_and (handleStreamData_spec s id data fin)
    (handleStreamData_credit s id data fin)) fun r s' h => ?_
  obtain ⟨houtcome, hreports⟩ := h
  cases houtcome with
  | refused | streamFull | sessionFull =>
    exact ⟨(Prod.mk.inj hreports).2, .of_credit hreports⟩
  | taken s₁ stream fc hadmits hadmitted hrecv hconsume =>
    obtain ⟨hends, hlimits⟩ := Prod.mk.inj hreports
    refine ⟨hlimits, ?_⟩
    cases fin with
    | false => exact .inl (hends.trans (endings_cons_none rfl))
    | true =>
      refine .inr ⟨id, hends.trans (endings_cons_some rfl), open_of_admits hadmits hrecv, ?_⟩
      obtain ⟨-, -, rfl⟩ := WtStream.recvData_eq_ok hrecv
      simp only [Book.slot_logEvent, Book.slot_setFlow, Book.slot_putStream, if_true, Slot.Done,
        recvState_noteData]
      intro hstate
      cases hstate

/-- What a capsule does to the ends and to the limits, while the record of closed streams has room. -/
def Heard (s s' : WtSession) : Prop :=
  s'.removedIds.length ≤ streamIdRecordMaxSize → limits s'.sent = limits s.sent ∧ Ended s s'

theorem handleResetStream_heard {errorCode size : Nat} (hrecords : Records s.toBook) :
    Ensures (handleResetStream id errorCode size) s fun _ s' => Heard s s' := by
  refine ensures_mono (handleResetStream_spec s id errorCode size) fun r s' h hcount => ?_
  cases h with
  | unknown | invalid => exact ⟨rfl, .inl rfl⟩
  | taken stream hlive hcan hpart hsize =>
    have hcount' : (s.toBook.settle id stream.recvReset).removedIds.length ≤ streamIdRecordMaxSize :=
      hcount
    refine ⟨congrArg limits Book.settle_sent, .inr ⟨id, ?_, ?_, ?_⟩⟩
    · change endings (_ :: (s.toBook.settle id stream.recvReset).notified) = _
      rw [endings_cons_some rfl, Book.settle_notified]
    · rw [Book.slot_eq_live.2 hlive]
      intro hdone
      exact hdone (WtStream.recvState_of_canRecv hcan)
    · rw [Book.slot_logEvent, slot_settled hrecords hcount' id, if_pos rfl, Slot.settled]
      split
      · trivial
      · intro hstate
        cases hstate

theorem handleCapsule_heard (s : WtSession) (c : Capsule) (hrecords : Records s.toBook) :
    Ensures (handleCapsule c) s fun _ s' => Heard s s' := by
  cases hclass : mayEnd c with
  | false =>
    have hkeeps : Prog.Keeps credit (handleCapsule c) := by
      unfold handleCapsule
      apply keeps_bind keeps_get
      intro s
      apply keeps_ite keeps_pure
      apply keeps_bind (dispatch_credit hclass)
      intro _
      exact update_credit fun _ => ⟨rfl, rfl⟩
    refine ensures_mono (hkeeps.ensures s) fun r s' h _ => ?_
    exact ⟨(Prod.mk.inj h).2, .of_credit h⟩
  | true =>
    have hdispatch : Ensures (dispatch c) s fun _ s' => Heard s s' := by
      cases c with
      | wtStream id data fin =>
        exact ensures_mono (handleStreamData_ended s id data fin) fun _ _ h _ => h
      | wtResetStream id errorCode size => exact handleResetStream_heard hrecords
      | _ => cases hclass
    simp only [handleCapsule, ensures_bind, ensures_get, ensures_ite, ensures_pure,
      ensures_updateBook]
    refine ⟨fun _ _ => ⟨by trivial, .inl rfl⟩, fun _ => ensures_mono hdispatch fun r s' h => ?_⟩
    cases r with
    | error e => exact h
    | ok u => exact h

/-! ## Done for good -/

theorem done_settled {stream : WtStream} (h : stream.recvState ≠ .recv) : (Slot.settled stream).Done := by
  unfold Slot.settled
  split
  · trivial
  · exact h

variable {b b' : Book}

theorem SlotMove.done {old new : Slot} {sent received : List Capsule}
    (h : SlotMove b id old new sent received) (hdone : old.Done) : new.Done := by
  cases h with
  | opened | created => exact hdone.elim
  | sendData stream stream' data fin hpart hsend =>
    obtain ⟨-, -, rfl⟩ := WtStream.sendData_eq_ok hsend
    exact done_settled hdone
  | sendReset => exact done_settled hdone
  | takeData stream stream' data fin hrecv =>
    obtain ⟨hcan, -, -⟩ := WtStream.recvData_eq_ok hrecv
    exact absurd (WtStream.recvState_of_canRecv hcan) hdone
  | takeReset stream errorCode hcan => exact absurd (WtStream.recvState_of_canRecv hcan) hdone
  | raiseClosed => trivial
  | read stream =>
    apply done_settled
    unfold WtStream.markDataRead
    split
    · intro hstate
      cases hstate
    · exact hdone
  | sendStop | sendMaximum | takeStop | takeMaximum => exact hdone

theorem Drift.done (h : Drift b b') (htable : Table b)
    (hcount : b'.removedIds.length ≤ streamIdRecordMaxSize) (hdone : (b.slot id).Done) :
    (b'.slot id).Done := by
  obtain h | h := h
  · obtain ⟨sent, received, -, -, hslots⟩ := h.slots htable hcount
    cases hslots with
    | idle hslots =>
      rw [hslots]
      exact hdone
    | touches touched old new hold hslots hmove =>
      rw [hslots]
      by_cases hid : id = touched
      · subst hid
        rw [if_pos rfl]
        exact hmove.done (hold ▸ hdone)
      · rw [if_neg hid]
        exact hdone
  · cases h with
    | halfData touched data fin stream stream' hlive hpart hrecv =>
      rw [Book.slot_putStream]
      by_cases hid : id = touched
      · subst hid
        obtain ⟨hcan, -, -⟩ := WtStream.recvData_eq_ok hrecv
        rw [Book.slot_eq_live.2 hlive] at hdone
        exact absurd (WtStream.recvState_of_canRecv hcan) hdone
      · rw [if_neg hid]
        exact hdone

theorem drifts_removedIds (h : Relation.ReflTransGen Drift b b') :
    b.removedIds.length ≤ b'.removedIds.length := by
  induction h with
  | refl => exact le_rfl
  | tail _ hstep ih => exact Nat.le_trans ih hstep.removedIds

/-- A table stays one, and what is done stays done, as long as the record of closed streams has
room. -/
theorem drifts_done (h : Relation.ReflTransGen Drift b b') (htable : Table b)
    (hcount : b'.removedIds.length ≤ streamIdRecordMaxSize) :
    Table b' ∧ ∀ id, (b.slot id).Done → (b'.slot id).Done := by
  induction h with
  | refl => exact ⟨htable, fun _ hdone => hdone⟩
  | tail _ hstep ih =>
    obtain ⟨htable', hdone'⟩ := ih (Nat.le_trans hstep.removedIds hcount)
    exact ⟨hstep.table htable' hcount,
      fun id hdone => hstep.done htable' hcount (hdone' id hdone)⟩

/-- The ends that were reported: each once, and all of them of streams that are done. -/
structure Closing (b : Book) : Prop where
  nodup : (endings b.notified).Nodup
  done : ∀ id ∈ endings b.notified, (b.slot id).Done

theorem Closing.of_ended (h : Closing s.toBook) (hended : Ended s s')
    (hdone : ∀ id, (s.slot id).Done → (s'.slot id).Done) : Closing s'.toBook := by
  obtain ⟨hnodup, hall⟩ := h
  obtain hsame | ⟨id, hcons, hopen, hnow⟩ := hended
  · constructor
    · rw [hsame]
      exact hnodup
    · rw [hsame]
      exact fun id hmem => hdone id (hall id hmem)
  · constructor
    · rw [hcons]
      exact List.nodup_cons.2 ⟨fun hmem => hopen (hall id hmem), hnodup⟩
    · rw [hcons]
      intro id' hmem
      obtain rfl | hmem := List.mem_cons.1 hmem
      · exact hnow
      · exact hdone id' (hall id' hmem)

theorem Processed.closing {cs : List Capsule} {r : WtResult Unit} (h : Processed s cs r s')
    (htable : Table s.toBook) (hclosing : Closing s.toBook)
    (hcount : s'.removedIds.length ≤ streamIdRecordMaxSize) :
    limits s'.sent = limits s.sent ∧ Closing s'.toBook := by
  have hstep : ∀ {s s₁ : WtSession} {c : Capsule} {d : CapsuleDecoder} {r : WtResult Unit},
      Table s.toBook → Closing s.toBook → s₁.removedIds.length ≤ streamIdRecordMaxSize →
      handleCapsule c { s with capsuleDecoder := d } = (r, s₁) →
      limits s₁.sent = limits s.sent ∧ Closing s₁.toBook ∧ Table s₁.toBook := by
    intro s s₁ c d r htable hclosing hcount hrun
    have hended := handleCapsule_heard { s with capsuleDecoder := d } c htable.records
    have hdrifts := handleCapsule_drifts { s with capsuleDecoder := d } c
    rw [ensures_run hrun] at hended hdrifts
    obtain ⟨hlimits, hended⟩ := hended hcount
    obtain ⟨htable₁, hdone⟩ := drifts_done hdrifts htable hcount
    exact ⟨hlimits, hclosing.of_ended hended hdone, htable₁⟩
  induction h with
  | waits | garbled => exact ⟨rfl, hclosing⟩
  | rejected s s' c d e _ hfails =>
    obtain ⟨hlimits, hclosing', -⟩ := hstep htable hclosing hcount hfails
    exact ⟨hlimits, hclosing'⟩
  | handled s s₁ s' c d cs r _ hhandled hrest ih =>
    have hcount₁ := Nat.le_trans (drifts_removedIds hrest.drifts) hcount
    obtain ⟨hlimits, hclosing₁, htable₁⟩ := hstep htable hclosing hcount₁ hhandled
    obtain ⟨hlimits', hclosing'⟩ := ih htable₁ hclosing₁ hcount
    exact ⟨hlimits'.trans hlimits, hclosing'⟩

/-- Reading an event takes it from the queue, and reports nothing. -/
theorem pollEvent_spec (s : WtSession) :
    Ensures pollEvent s fun r s' =>
      s'.notified = s.notified ∧ s'.sent = s.sent ∧
        (s.events = [] ∧ r = .ok none ∧ s' = s ∨
          ∃ e rest, s.events = e :: rest ∧ r = .ok (some e) ∧ s'.events = rest) := by
  simp only [pollEvent, ensures_bind, ensures_get]
  cases hevents : s.events with
  | nil => exact ⟨rfl, rfl, .inl ⟨rfl, rfl, rfl⟩⟩
  | cons e rest =>
    simp only [ensures_bind, ensures_modify]
    split
    · rename_i id data
      obtain ⟨hnotified, hsent⟩ := finishReading_logs s.toBook id
      simp only [ensures_bind, ensures_updateBook, ensures_pure]
      exact ⟨hnotified, hsent, .inr ⟨_, rest, rfl, rfl, rfl⟩⟩
    · exact ⟨rfl, rfl, .inr ⟨e, rest, rfl, rfl, rfl⟩⟩

/-- Raising a limit on streams reports nothing. -/
theorem growMaxStreams_notified (s : WtSession) (increment : Nat) (bidirectional : Bool) :
    Ensures (growMaxStreams increment bidirectional) s fun _ s' =>
      s'.notified = s.notified ∧ s'.events = s.events := by
  refine ensures_mono (growMaxStreams_spec s increment bidirectional) fun r s' h => ?_
  obtain ⟨e, -, rfl⟩ | ⟨-, -, maximum, -, -, -, rfl⟩ := h
  · exact ⟨rfl, rfl⟩
  · exact ⟨rfl, rfl⟩

theorem exec_notified (hfc : s.flowControl.sendOffset ≤ s.flowControl.sendMax) {call : WtCall}
    (hprocess : call ≠ .process) : (call.exec s).2.notified = s.notified := by
  cases hraises : call.raisesStreams with
  | false =>
    by_cases hpoll : call = .pollEvent
    · subst hpoll
      have hspec : Ensures (WtCall.exec .pollEvent) s fun _ s' => s'.notified = s.notified :=
        ensures_return.2 (ensures_mono (pollEvent_spec s) fun _ _ h => h.1)
      exact hspec
    · exact (exec_quiet hfc hprocess hpoll hraises).notified
  | true =>
    cases call with
    | sendMaxStreams maximum bidirectional =>
      have hspec : Ensures (WtCall.exec (.sendMaxStreams maximum bidirectional)) s fun _ s' =>
          s'.notified = s.notified := by
        refine ensures_return.2 (ensures_mono (sendMaxStreams_spec s maximum bidirectional)
          fun r s' h => ?_)
        obtain ⟨e, -, rfl⟩ | ⟨-, -, -, -, rfl⟩ := h
        · rfl
        · rfl
      exact hspec
    | growMaxStreams increment bidirectional =>
      have hspec : Ensures (WtCall.exec (.growMaxStreams increment bidirectional)) s fun _ s' =>
          s'.notified = s.notified :=
        ensures_return.2 (ensures_mono (growMaxStreams_notified s increment bidirectional)
          fun _ _ h => h.1)
      exact hspec
    | _ => cases hraises

theorem process_closing (htable : Table s.toBook) (hclosing : Closing s.toBook) :
    Ensures process s fun _ s' => s'.removedIds.length ≤ streamIdRecordMaxSize →
      limits s'.sent = limits s.sent ∧ Closing s'.toBook := by
  refine ensures_mono (process_spec s) fun r s' h hcount => ?_
  obtain ⟨cs, h⟩ := h
  exact h.closing htable hclosing hcount

theorem WtRun.removedIds {role : Role} {config peerConfig : WtConfig}
    (run : WtRun role config peerConfig s) (call : WtCall) :
    s.removedIds.length ≤ (call.exec s).2.removedIds.length :=
  drifts_removedIds (exec_drifts run.kept.send call)

/-- In every run that removes no more streams than a session can remember, the end of each stream is
reported once, and the stream is done. -/
theorem WtRun.closing {role : Role} {config peerConfig : WtConfig}
    (run : WtRun role config peerConfig s)
    (hcount : s.removedIds.length ≤ streamIdRecordMaxSize) : Closing s.toBook := by
  induction run with
  | init => exact ⟨List.nodup_nil, fun id hmem => absurd hmem List.not_mem_nil⟩
  | @call s run c ih =>
    have hcount₀ := Nat.le_trans (run.removedIds c) hcount
    have htable := (WtReach.run run).table hcount₀
    by_cases hprocess : c = .process
    · subst hprocess
      have hspec : Ensures (WtCall.exec .process) s fun _ s' =>
          s'.removedIds.length ≤ streamIdRecordMaxSize → Closing s'.toBook :=
        ensures_return.2 (ensures_mono (process_closing htable (ih hcount₀))
          fun _ _ h hcount => (h hcount).2)
      exact hspec hcount
    · obtain ⟨-, hdone⟩ := drifts_done (exec_drifts run.kept.send c) htable hcount
      exact (ih hcount₀).of_ended (.inl (congrArg endings (exec_notified run.kept.send hprocess))) hdone

end Ending

/-! ## The limits that were announced -/

/-- The limit on streams of one direction that an announcement is about. -/
def limitOn (bidirectional : Bool) (announced : Nat × Bool) : Option Nat :=
  if announced.2 = bidirectional then some announced.1 else none

/-- The session goes by the limits that it announced last. -/
def Announced (config : WtConfig) (b : Book) : Prop :=
  ∀ bidirectional, b.flowControl.maxStreamsLocal bidirectional =
    latest (limitOn bidirectional) (config.initialMaxStreams bidirectional) (limits b.sent)

theorem Announced.maxStreamsLocal {config : WtConfig} {b b' : Book} (h : Announced config b)
    (h' : Announced config b') (hsame : limits b'.sent = limits b.sent) (bidirectional : Bool) :
    b'.flowControl.maxStreamsLocal bidirectional = b.flowControl.maxStreamsLocal bidirectional := by
  rw [h' bidirectional, h bidirectional, hsame]

theorem limits_unmetered {sent earlier : List Capsule} (h : ∀ c ∈ sent, c.Unmetered) :
    limits (sent ++ earlier) = limits earlier := by
  induction sent with
  | nil => rfl
  | cons c sent ih =>
    have hnone : c.limit? = none := by
      have hc := h c (List.mem_cons_self ..)
      cases c <;> first | rfl | cases hc
    rw [List.cons_append, limits_cons_none hnone]
    exact ih fun c' hmem => h c' (List.mem_cons_of_mem _ hmem)

theorem Drift.announced {config : WtConfig} {b b' : Book} (h : Drift b b')
    (hannounced : Announced config b) : Announced config b' := by
  obtain ⟨sent, received, hflows⟩ := h.flow
  have hstep := hflows.step
  intro bidirectional
  have hold := hannounced bidirectional
  rw [hflows.sent]
  generalize b'.flowControl = fc at hstep
  cases hstep with
  | stays _ _ hsent =>
    rw [limits_unmetered hsent]
    exact hold
  | opens opened =>
    cases opened <;> exact hold
  | sends _ id data fin _ h =>
    obtain ⟨-, rfl⟩ := consumeSend_ok h
    exact hold
  | takes _ _ _ _ h =>
    obtain ⟨-, rfl⟩ := consumeRecv_ok h
    exact hold
  | raises | grants => exact hold
  | raisesStreams maximum raised =>
    change _ = latest _ _ ((maximum, raised) :: limits b.sent)
    rw [latest_cons]
    cases raised <;> cases bidirectional <;> first | exact hold | rfl
  | grantsStreams maximum raised => cases raised <;> exact hold

theorem WtRun.announced {role : Role} {config peerConfig : WtConfig} {s : WtSession}
    (run : WtRun role config peerConfig s) : Announced config s.toBook := by
  refine (drifts_keeps run.drifts ?_ fun b b' _ _ hannounced hstep => hstep.announced hannounced).2
  intro bidirectional
  cases bidirectional <;> rfl

end Http2.WebTransport
