import Http2.WebTransport.Codec
import Http2.WebTransport.Run

/-! What the calls that send do: each of them fails and changes nothing, or does one thing. -/
namespace Http2.WebTransport

open Lib Lib.Prog WtSession

namespace Book

/-- Puts a stream back, or removes it when that closed it. -/
def settle (b : Book) (streamId : Nat) (s : WtStream) : Book :=
  (b.putStream streamId s).removeIfClosed streamId

/-- What `open_stream` does. -/
def openLocal (b : Book) (bidirectional : Bool) : Book :=
  let streamId := if bidirectional then b.nextBidiStreamId else b.nextUniStreamId
  let sendMax :=
    if bidirectional then b.peerConfig.initialMaxStreamDataBidiRemote.toNat
    else b.peerConfig.initialMaxStreamDataUni.toNat
  let recvMax :=
    if bidirectional then b.config.initialMaxStreamDataBidiLocal.toNat
    else b.config.initialMaxStreamDataUni.toNat
  let next :=
    if bidirectional then { b with nextBidiStreamId := StreamId.next streamId }
    else { b with nextUniStreamId := StreamId.next streamId }
  let put := next.putStream streamId (WtStream.new streamId sendMax recvMax bidirectional true)
  { put with
    openedIds := streamId :: put.openedIds
    flowControl := put.flowControl.openedStream bidirectional }

end Book

namespace WtSession

variable {s : WtSession}

/-! ## Steps of programs -/

@[simp] theorem ensures_updateBook {f : Book → Book} {Q : WtResult Unit → WtSession → Prop} :
    Ensures (update f) s Q ↔ Q (.ok ()) { s with toBook := f s.toBook } := Iff.rfl

@[simp] theorem ensures_emit {c : Capsule} {Q : WtResult Unit → WtSession → Prop} :
    Ensures (emit c) s Q ↔ Q (.ok ()) { s with
      toBook := s.toBook.logSent c
      outputBuffer := s.outputBuffer ++ c.encode } := Iff.rfl

@[simp] theorem ensures_notify {e : WtEvent} {Q : WtResult Unit → WtSession → Prop} :
    Ensures (notify e) s Q ↔ Q (.ok ()) { s with
      toBook := s.toBook.logEvent e
      events := s.events ++ [e] } := Iff.rfl

@[simp] theorem ensures_setState {state : WtSessionState} {Q : WtResult Unit → WtSession → Prop} :
    Ensures (setState state) s Q ↔ Q (.ok ()) { s with state := state } := Iff.rfl

@[simp] theorem ensures_requireOpen {reason : String} {Q : WtResult Unit → WtSession → Prop} :
    Ensures (requireOpen reason) s Q ↔
      (s.state = .active ∨ s.state = .draining → Q (.ok ()) s) ∧
      (¬ (s.state = .active ∨ s.state = .draining) →
        Q (.error (.sessionStateError reason)) s) := by
  simp only [requireOpen, ensures_bind, ensures_get, ensures_require]

@[simp] theorem ensures_findStream {streamId : Nat} {Q : WtResult WtStream → WtSession → Prop} :
    Ensures (findStream streamId) s Q ↔
      (∀ stream, s.stream? streamId = some stream → Q (.ok stream) s) ∧
      (s.stream? streamId = none → Q (.error (.invalidStreamId "stream not found")) s) := by
  simp only [findStream, ensures_bind, ensures_get]
  cases s.stream? streamId with
  | none => simp
  | some stream => simp

/-- The state after a capsule went out and the book became `b`. -/
def sends (s : WtSession) (c : Capsule) (b : Book) : WtSession :=
  { s with
    toBook := b
    outputBuffer := s.outputBuffer ++ c.encode }

/-- The call failed and nothing changed. -/
def Refused {α : Type} (s : WtSession) (r : WtResult α) (s' : WtSession) : Prop :=
  ∃ e, r = .error e ∧ s' = s

/-! ## The calls that send -/

theorem settle_of_open {b : Book} {streamId : Nat} {stream : WtStream}
    (h : stream.isClosed = false) : b.settle streamId stream = b.putStream streamId stream := by
  simp [Book.settle, Book.removeIfClosed, Book.stream?, Book.putStream, h]

/-- Sending without FIN keeps a stream open. -/
theorem isClosed_of_sendData {stream stream' : WtStream} {size : Nat}
    (hpart : stream.hasSendPart = true) (h : stream.sendData size false = .ok stream') :
    stream'.isClosed = false := by
  obtain ⟨-, -, rfl⟩ := WtStream.sendData_eq_ok h
  simp only [WtStream.hasSendPart, Bool.or_eq_true] at hpart
  obtain hpart | hpart := hpart
  · simp [WtStream.isClosed, hpart, SendState.isTerminal]
  · cases hb : stream.bidirectional <;> simp [WtStream.isClosed, hpart, SendState.isTerminal]

/-- `send_stream_data` got through. -/
def SendsData (b : Book) (streamId : Nat) (data : Bytes) (fin : Bool) (b' : Book) : Prop :=
  ∃ stream stream' fc, b.stream? streamId = some stream ∧ stream.hasSendPart = true ∧
    stream.sendData data.length fin = .ok stream' ∧
    b.flowControl.consumeSend data.length = .ok fc ∧
    data.length ≤ b.flowControl.sendAvailable ∧
    b' = ((b.setFlow fc).logSent (.wtStream streamId data fin)).settle streamId stream'

/-- What fits the window that is left is taken from it. -/
theorem consumeSend_of_room {fc : WtFlowControl} {size : Nat} (hfc : fc.sendOffset ≤ fc.sendMax)
    (hroom : size ≤ fc.sendAvailable) : ∃ fc', fc.consumeSend size = .ok fc' := by
  have hle : saturatingAdd fc.sendOffset size ≤ fc.sendMax := by
    simp only [WtFlowControl.sendAvailable] at hroom
    simp only [saturatingAdd]
    omega
  exact ⟨_, if_neg (Nat.not_lt.2 hle)⟩

theorem sendStreamData_spec (hfc : s.flowControl.sendOffset ≤ s.flowControl.sendMax)
    (streamId : Nat) (data : Bytes) (fin : Bool) :
    Ensures (sendStreamData streamId data fin) s fun r s' =>
      Refused s r s' ∨
        (s.state = .active ∨ s.state = .draining) ∧ r = .ok () ∧
          ∃ b, SendsData s.toBook streamId data fin b ∧
            s' = s.sends (.wtStream streamId data fin) b := by
  simp only [sendStreamData, ensures_bind, ensures_requireOpen, ensures_findStream,
    ensures_require, ensures_get, ensures_lift, ensures_updateBook, ensures_emit]
  refine ⟨fun hopen => ⟨fun stream hlive => ⟨fun _ => ⟨fun hpart => ⟨fun hroom => ?_,
    fun _ => .inl ⟨_, rfl, rfl⟩⟩, fun _ => .inl ⟨_, rfl, rfl⟩⟩, fun _ => .inl ⟨_, rfl, rfl⟩⟩,
    fun _ => .inl ⟨_, rfl, rfl⟩⟩, fun _ => .inl ⟨_, rfl, rfl⟩⟩
  cases hsend : stream.sendData data.length fin with
  | error e => exact .inl ⟨_, rfl, rfl⟩
  | ok stream' =>
    obtain ⟨fc, hconsume⟩ := consumeSend_of_room hfc hroom
    simp only [hconsume]
    cases fin with
    | true => exact .inr ⟨hopen, rfl, _, ⟨stream, stream', fc, hlive, hpart, hsend, hconsume,
        hroom, rfl⟩, rfl⟩
    | false =>
      refine .inr ⟨hopen, rfl, _, ⟨stream, stream', fc, hlive, hpart, hsend, hconsume, hroom,
        rfl⟩, ?_⟩
      rw [settle_of_open (isClosed_of_sendData hpart hsend)]
      rfl

/-- `reset_stream` passes its checks. -/
def CanReset (b : Book) (streamId errorCode : Nat) : Prop :=
  errorCode ≤ maxApplicationErrorCode ∧
    ∃ stream, b.stream? streamId = some stream ∧ stream.canSend = true ∧ stream.hasSendPart = true

def Resets (b : Book) (streamId errorCode : Nat) (stream : WtStream) : Book :=
  (b.logSent (.wtResetStream streamId errorCode stream.sendOffset)).settle streamId
    stream.sendReset

theorem resetStream_spec (s : WtSession) (streamId errorCode : Nat) :
    Ensures (resetStream streamId errorCode) s fun r s' =>
      ¬ CanReset s.toBook streamId errorCode ∧ Refused s r s' ∨
        errorCode ≤ maxApplicationErrorCode ∧ r = .ok () ∧
          ∃ stream, s.stream? streamId = some stream ∧ stream.canSend = true ∧
            stream.hasSendPart = true ∧
            s' = s.sends (.wtResetStream streamId errorCode stream.sendOffset)
              (Resets s.toBook streamId errorCode stream) := by
  simp only [resetStream, ensures_bind, ensures_findStream, ensures_require, ensures_updateBook,
    ensures_emit]
  refine ⟨fun hcode => ⟨fun stream hlive => ⟨fun hcan => ⟨fun hpart => ?_, fun hpart => ?_⟩,
    fun hcan => ?_⟩, fun hnone => ?_⟩, fun hcode => ?_⟩
  · exact .inr ⟨hcode, trivial, stream, hlive, hcan, hpart, rfl⟩
  · refine .inl ⟨?_, _, rfl, rfl⟩
    rintro ⟨-, stream', hlive', -, hpart'⟩
    obtain rfl := Option.some.inj (hlive.symm.trans hlive')
    exact hpart hpart'
  · refine .inl ⟨?_, _, rfl, rfl⟩
    rintro ⟨-, stream', hlive', hcan', -⟩
    obtain rfl := Option.some.inj (hlive.symm.trans hlive')
    exact hcan hcan'
  · refine .inl ⟨?_, _, rfl, rfl⟩
    rintro ⟨-, stream', hlive', -⟩
    cases hnone.symm.trans hlive'
  · exact .inl ⟨fun h => hcode h.1, _, rfl, rfl⟩

/-- `stop_sending` passes its checks. -/
def CanStop (b : Book) (streamId errorCode : Nat) : Prop :=
  errorCode ≤ maxApplicationErrorCode ∧
    ∃ stream, b.stream? streamId = some stream ∧ stream.hasRecvPart = true ∧
      stream.stopSendingSent = false ∧ stream.recvState ≠ .resetRead

theorem stopSending_spec (s : WtSession) (streamId errorCode : Nat) :
    Ensures (stopSending streamId errorCode) s fun r s' =>
      ¬ CanStop s.toBook streamId errorCode ∧ Refused s r s' ∨
        errorCode ≤ maxApplicationErrorCode ∧ r = .ok () ∧
          ∃ stream, s.stream? streamId = some stream ∧ stream.hasRecvPart = true ∧
            stream.stopSendingSent = false ∧ stream.recvState ≠ .resetRead ∧
            s' = s.sends (.wtStopSending streamId errorCode)
              ((s.toBook.logSent (.wtStopSending streamId errorCode)).putStream streamId
                stream.setStopSendingSent) := by
  simp only [stopSending, ensures_bind, ensures_findStream, ensures_require, ensures_updateBook,
    ensures_emit]
  refine ⟨fun hcode => ⟨fun stream hlive => ⟨fun hpart => ⟨fun hfirst => ⟨fun hrecv => ?_,
    fun hrecv => ?_⟩, fun hfirst => ?_⟩, fun hpart => ?_⟩, fun hnone => ?_⟩, fun hcode => ?_⟩
  · exact .inr ⟨hcode, trivial, stream, hlive, hpart, hfirst, hrecv, rfl⟩
  · refine .inl ⟨?_, _, rfl, rfl⟩
    rintro ⟨-, stream', hlive', -, -, hrecv'⟩
    obtain rfl := Option.some.inj (hlive.symm.trans hlive')
    exact hrecv hrecv'
  · refine .inl ⟨?_, _, rfl, rfl⟩
    rintro ⟨-, stream', hlive', -, hfirst', -⟩
    obtain rfl := Option.some.inj (hlive.symm.trans hlive')
    exact hfirst hfirst'
  · refine .inl ⟨?_, _, rfl, rfl⟩
    rintro ⟨-, stream', hlive', hpart', -⟩
    obtain rfl := Option.some.inj (hlive.symm.trans hlive')
    exact hpart hpart'
  · refine .inl ⟨?_, _, rfl, rfl⟩
    rintro ⟨-, stream', hlive', -⟩
    cases hnone.symm.trans hlive'
  · exact .inl ⟨fun h => hcode h.1, _, rfl, rfl⟩

theorem sendDatagram_spec (s : WtSession) (data : Bytes) :
    Ensures (sendDatagram data) s fun r s' =>
      Refused s r s' ∨
        (s.state = .active ∨ s.state = .draining) ∧ r = .ok () ∧
          s' = s.sends (.datagram data) (s.toBook.logSent (.datagram data)) := by
  simp only [sendDatagram, ensures_bind, ensures_requireOpen, ensures_emit]
  exact ⟨fun hopen => .inr ⟨hopen, trivial, rfl⟩, fun _ => .inl ⟨_, rfl, rfl⟩⟩

/-- The capsule that `close` sends. -/
def closeCapsule (errorCode : UInt32) (reason : String) : Capsule :=
  .wtCloseSession errorCode (closeReason reason)

theorem close_spec (s : WtSession) (errorCode : UInt32) (reason : String) :
    Ensures (close errorCode reason) s fun r s' =>
      s.state = .closed ∧ Refused s r s' ∨
        s.state ≠ .closed ∧ r = .ok () ∧
          s' = { s.sends (closeCapsule errorCode reason)
              (s.toBook.logSent (closeCapsule errorCode reason)) with state := .closed } := by
  simp only [close, ensures_bind, ensures_get, ensures_require, ensures_emit, ensures_setState]
  exact ⟨fun hopen => .inr ⟨hopen, trivial, rfl⟩,
    fun hclosed => .inl ⟨not_not.1 hclosed, _, rfl, rfl⟩⟩

theorem drain_spec (s : WtSession) :
    Ensures drain s fun r s' =>
      Refused s r s' ∨
        s.state = .active ∧ r = .ok () ∧
          s' = { s.sends .wtDrainSession (s.toBook.logSent .wtDrainSession) with
            state := .draining } := by
  simp only [drain, ensures_bind, ensures_get, ensures_require, ensures_emit, ensures_setState]
  exact ⟨fun hactive => .inr ⟨hactive, trivial, rfl⟩, fun _ => .inl ⟨_, rfl, rfl⟩⟩

/-! ## The calls that raise limits -/

/-- `update_recv_max` of the session accepts the value. -/
def CanRaise (b : Book) (maximum : Nat) : Prop :=
  maximum ≤ Varint.maxValue ∧ b.flowControl.recvMax < maximum

def raiseMaxData (b : Book) (maximum : Nat) : Book :=
  (b.setFlow { b.flowControl with recvMax := maximum }).logSent (.wtMaxData maximum)

theorem sendMaxData_spec (s : WtSession) (maximum : Nat) :
    Ensures (sendMaxData maximum) s fun r s' =>
      ¬ CanRaise s.toBook maximum ∧ Refused s r s' ∨
        CanRaise s.toBook maximum ∧ r = .ok () ∧
          s' = s.sends (.wtMaxData maximum) (raiseMaxData s.toBook maximum) := by
  simp only [sendMaxData, ensures_bind, ensures_get, ensures_lift, ensures_updateBook, ensures_emit,
    WtFlowControl.updateRecvMax]
  by_cases hbig : maximum > Varint.maxValue
  · simp only [hbig, if_true]
    exact .inl ⟨fun h => absurd h.1 (Nat.not_le.2 hbig), _, rfl, rfl⟩
  · simp only [hbig, if_false]
    by_cases hle : maximum ≤ s.flowControl.recvMax
    · simp only [hle, if_true]
      exact .inl ⟨fun h => absurd h.2 (Nat.not_lt.2 hle), _, rfl, rfl⟩
    · simp only [hle, if_false]
      exact .inr ⟨⟨Nat.le_of_not_lt hbig, Nat.lt_of_not_le hle⟩, trivial, rfl⟩

/-- `send_max_stream_data` passes its checks. -/
def CanRaiseStream (b : Book) (streamId maximum : Nat) : Prop :=
  maximum ≤ Varint.maxValue ∧
    ∃ stream, b.stream? streamId = some stream ∧ stream.hasRecvPart = true ∧
      stream.stopSendingSent = false ∧ stream.recvState = .recv ∧ stream.recvMax < maximum

def raiseMaxStreamData (b : Book) (streamId maximum : Nat) (stream : WtStream) : Book :=
  (b.putStream streamId { stream with recvMax := maximum }).logSent
    (.wtMaxStreamData streamId maximum)

theorem sendMaxStreamData_spec (s : WtSession) (streamId maximum : Nat) :
    Ensures (sendMaxStreamData streamId maximum) s fun r s' =>
      ¬ CanRaiseStream s.toBook streamId maximum ∧ Refused s r s' ∨
        maximum ≤ Varint.maxValue ∧ r = .ok () ∧
          ∃ stream, s.stream? streamId = some stream ∧ stream.hasRecvPart = true ∧
            stream.stopSendingSent = false ∧ stream.recvState = .recv ∧ stream.recvMax < maximum ∧
            s' = s.sends (.wtMaxStreamData streamId maximum)
              (raiseMaxStreamData s.toBook streamId maximum stream) := by
  simp only [sendMaxStreamData, ensures_bind, ensures_findStream, ensures_require, ensures_lift,
    ensures_updateBook, ensures_emit]
  refine ⟨fun hmax => ⟨fun stream hlive => ⟨fun hpart => ⟨fun hstop => ⟨fun hrecv => ⟨fun hlt => ?_,
    fun hlt => ?_⟩, fun hrecv => ?_⟩, fun hstop => ?_⟩, fun hpart => ?_⟩, fun hnone => ?_⟩,
    fun hmax => ?_⟩
  · have hupdate : stream.updateRecvMax maximum = .ok { stream with recvMax := maximum } := by
      simp only [WtStream.updateRecvMax, if_neg (Nat.not_lt.2 hmax), if_pos hlt]
    simp only [hupdate]
    exact .inr ⟨hmax, trivial, stream, hlive, hpart, hstop, hrecv, hlt, rfl⟩
  · refine .inl ⟨?_, _, rfl, rfl⟩
    rintro ⟨-, stream', hlive', -, -, -, hlt'⟩
    obtain rfl := Option.some.inj (hlive.symm.trans hlive')
    exact hlt hlt'
  · refine .inl ⟨?_, _, rfl, rfl⟩
    rintro ⟨-, stream', hlive', -, -, hrecv', -⟩
    obtain rfl := Option.some.inj (hlive.symm.trans hlive')
    exact hrecv hrecv'
  · refine .inl ⟨?_, _, rfl, rfl⟩
    rintro ⟨-, stream', hlive', -, hstop', -⟩
    obtain rfl := Option.some.inj (hlive.symm.trans hlive')
    exact hstop hstop'
  · refine .inl ⟨?_, _, rfl, rfl⟩
    rintro ⟨-, stream', hlive', hpart', -⟩
    obtain rfl := Option.some.inj (hlive.symm.trans hlive')
    exact hpart hpart'
  · refine .inl ⟨?_, _, rfl, rfl⟩
    rintro ⟨-, stream', hlive', -⟩
    cases hnone.symm.trans hlive'
  · exact .inl ⟨fun h => hmax h.1, _, rfl, rfl⟩

/-- The flow control with a limit on streams of one direction raised. -/
def raiseLocal (fc : WtFlowControl) (maximum : Nat) (bidirectional : Bool) : WtFlowControl :=
  if bidirectional then { fc with maxStreamsBidiLocal := maximum }
  else { fc with maxStreamsUniLocal := maximum }

theorem checkMaxStreamsIncrease_ok {current maximum : Nat} {label context : String} {u : Unit}
    (h : checkMaxStreamsIncrease current maximum label context = .ok u) :
    maximum ≤ maxStreamsLimit ∧ current < maximum := by
  unfold checkMaxStreamsIncrease at h
  split at h
  · cases h
  · split at h
    · cases h
    · exact ⟨by omega, by omega⟩

theorem sendMaxStreams_spec (s : WtSession) (maximum : Nat) (bidirectional : Bool) :
    Ensures (sendMaxStreams maximum bidirectional) s fun r s' =>
      Refused s r s' ∨
        (s.state = .active ∨ s.state = .draining) ∧ r = .ok () ∧ maximum ≤ maxStreamsLimit ∧
          s.flowControl.maxStreamsLocal bidirectional < maximum ∧
          s' = s.sends (.wtMaxStreams maximum bidirectional)
            ((s.toBook.setFlow (raiseLocal s.flowControl maximum bidirectional)).logSent
              (.wtMaxStreams maximum bidirectional)) := by
  simp only [sendMaxStreams, ensures_bind, ensures_requireOpen, ensures_get, ensures_lift,
    ensures_updateBook, ensures_emit]
  refine ⟨fun hopen => ?_, fun _ => .inl ⟨_, rfl, rfl⟩⟩
  cases hcheck : checkMaxStreamsIncrease (s.flowControl.maxStreamsLocal bidirectional) maximum
      (WtFlowControl.label bidirectional) "advertised" with
  | error e =>
    simp only [WtFlowControl.updateMaxStreamsLocal, hcheck, bind, Except.bind]
    exact .inl ⟨_, rfl, rfl⟩
  | ok u =>
    obtain ⟨hmax, hlt⟩ := checkMaxStreamsIncrease_ok hcheck
    simp only [WtFlowControl.updateMaxStreamsLocal, hcheck, bind, Except.bind, pure, Except.pure]
    exact .inr ⟨hopen, trivial, hmax, hlt, rfl⟩

/-- An increment that overflows would exceed the limit anyway. -/
theorem grownBy_cases (capsule : String) (current increment : Nat) :
    grownBy capsule current increment = .ok (current + increment) ∨
      (∃ e, grownBy capsule current increment = .error e) ∧
        Varint.maxValue < current + increment ∧ maxStreamsLimit < current + increment := by
  unfold grownBy checkedAdd
  by_cases hfit : current + increment ≤ u64Max
  · simp only [hfit, if_true]
    exact .inl trivial
  · simp only [hfit, if_false]
    refine .inr ⟨⟨_, rfl⟩, ?_, ?_⟩
    · simp only [u64Max, Varint.maxValue] at hfit ⊢
      omega
    · simp only [u64Max, maxStreamsLimit] at hfit ⊢
      omega

theorem growRecvWindow_spec (s : WtSession) (increment : Nat) :
    Ensures (growRecvWindow increment) s fun r s' =>
      ¬ CanRaise s.toBook (s.flowControl.recvMax + increment) ∧ Refused s r s' ∨
        CanRaise s.toBook (s.flowControl.recvMax + increment) ∧ r = .ok () ∧
          s' = s.sends (.wtMaxData (s.flowControl.recvMax + increment))
            (raiseMaxData s.toBook (s.flowControl.recvMax + increment)) := by
  simp only [growRecvWindow, ensures_bind, ensures_get, ensures_lift]
  obtain hok | ⟨⟨e, herror⟩, hbig, -⟩ :=
    grownBy_cases "WT_MAX_DATA" s.flowControl.recvMax increment
  · simp only [hok]
    exact sendMaxData_spec s _
  · simp only [herror]
    exact .inl ⟨fun h => absurd h.1 (Nat.not_le.2 hbig), _, rfl, rfl⟩

theorem growStreamRecvWindow_spec (s : WtSession) (streamId increment : Nat) :
    Ensures (growStreamRecvWindow streamId increment) s fun r s' =>
      (∀ stream, s.stream? streamId = some stream →
          ¬ CanRaiseStream s.toBook streamId (stream.recvMax + increment)) ∧ Refused s r s' ∨
        r = .ok () ∧
          ∃ stream maximum, s.stream? streamId = some stream ∧ stream.hasRecvPart = true ∧
            stream.stopSendingSent = false ∧ stream.recvState = .recv ∧ stream.recvMax < maximum ∧
            maximum = stream.recvMax + increment ∧ maximum ≤ Varint.maxValue ∧
            s' = s.sends (.wtMaxStreamData streamId maximum)
              (raiseMaxStreamData s.toBook streamId maximum stream) := by
  simp only [growStreamRecvWindow, ensures_bind, ensures_findStream, ensures_lift]
  refine ⟨fun stream hlive => ?_, fun hnone => ?_⟩
  · obtain hok | ⟨⟨e, herror⟩, hbig, -⟩ :=
      grownBy_cases "WT_MAX_STREAM_DATA" stream.recvMax increment
    · simp only [hok]
      refine ensures_mono (sendMaxStreamData_spec s streamId _) fun r s' h => ?_
      obtain ⟨hcannot, hrefused⟩ | ⟨hmax, hr, stream', hlive', hpart, hstop, hrecv, hlt, hs'⟩ := h
      · refine .inl ⟨fun stream' hlive' => ?_, hrefused⟩
        obtain rfl := Option.some.inj (hlive.symm.trans hlive')
        exact hcannot
      · obtain rfl := Option.some.inj (hlive.symm.trans hlive')
        exact .inr ⟨hr, stream, _, hlive, hpart, hstop, hrecv, hlt, rfl, hmax, hs'⟩
    · simp only [herror]
      refine .inl ⟨fun stream' hlive' hcan => ?_, _, rfl, rfl⟩
      obtain rfl := Option.some.inj (hlive.symm.trans hlive')
      exact absurd hcan.1 (Nat.not_le.2 hbig)
  · refine .inl ⟨fun stream' hlive' => ?_, _, rfl, rfl⟩
    cases hnone.symm.trans hlive'

theorem growMaxStreams_spec (s : WtSession) (increment : Nat) (bidirectional : Bool) :
    Ensures (growMaxStreams increment bidirectional) s fun r s' =>
      Refused s r s' ∨
        (s.state = .active ∨ s.state = .draining) ∧ r = .ok () ∧
          ∃ maximum ≤ maxStreamsLimit, s.flowControl.maxStreamsLocal bidirectional < maximum ∧
            maximum = s.flowControl.maxStreamsLocal bidirectional + increment ∧
            s' = s.sends (.wtMaxStreams maximum bidirectional)
              ((s.toBook.setFlow (raiseLocal s.flowControl maximum bidirectional)).logSent
                (.wtMaxStreams maximum bidirectional)) := by
  simp only [growMaxStreams, ensures_bind, ensures_get, ensures_lift]
  obtain hok | ⟨⟨e, herror⟩, -⟩ :=
    grownBy_cases "WT_MAX_STREAMS" (s.flowControl.maxStreamsLocal bidirectional) increment
  · simp only [hok]
    refine ensures_mono (sendMaxStreams_spec s _ bidirectional) fun r s' h => ?_
    obtain hrefused | ⟨hopen, hr, hmax, hlt, hs'⟩ := h
    · exact .inl hrefused
    · exact .inr ⟨hopen, hr, _, hmax, hlt, rfl, hs'⟩
  · simp only [herror]
    exact .inl ⟨_, rfl, rfl⟩

/-! ## The calls that open and begin -/

/-- Another stream of the direction fits the limit of the peer. -/
def CanOpen (b : Book) (bidirectional : Bool) : Prop :=
  if bidirectional then b.flowControl.openedStreamsBidi < b.flowControl.maxStreamsBidiRemote
  else b.flowControl.openedStreamsUni < b.flowControl.maxStreamsUniRemote

theorem openStream_spec (s : WtSession) (bidirectional : Bool) :
    Ensures (openStream bidirectional) s fun r s' =>
      Refused s r s' ∨
        (s.state = .active ∨ s.state = .draining) ∧ CanOpen s.toBook bidirectional ∧
          r = .ok (if bidirectional then s.nextBidiStreamId else s.nextUniStreamId) ∧
          s' = { s with toBook := s.toBook.openLocal bidirectional } := by
  simp only [openStream, ensures_bind, ensures_requireOpen, ensures_get]
  refine ⟨fun hopen => ?_, fun _ => .inl ⟨_, rfl, rfl⟩⟩
  cases bidirectional with
  | true =>
    simp only [if_true, ensures_bind, ensures_require, ensures_updateBook, ensures_pure]
    refine ⟨fun hroom => .inr ⟨hopen, ?_, trivial, rfl⟩, fun _ => .inl ⟨_, rfl, rfl⟩⟩
    exact @of_decide_eq_true (_ < _) _ hroom
  | false =>
    simp only [Bool.false_eq_true, if_false, ensures_bind, ensures_require, ensures_updateBook,
      ensures_pure]
    refine ⟨fun hroom => .inr ⟨hopen, ?_, trivial, rfl⟩, fun _ => .inl ⟨_, rfl, rfl⟩⟩
    exact @of_decide_eq_true (_ < _) _ hroom

theorem initiate_spec (s : WtSession) :
    Ensures initiate s fun r s' =>
      Refused s r s' ∨ s.state = .initial ∧ r = .ok () ∧ s' = { s with state := .active } := by
  simp only [initiate, ensures_bind, ensures_get, ensures_require, ensures_setState]
  exact ⟨fun hinitial => .inr ⟨hinitial, trivial, trivial⟩, fun _ => .inl ⟨_, rfl, rfl⟩⟩

end WtSession

end Http2.WebTransport
