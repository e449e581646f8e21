import Mathlib.Logic.Relation
import Http2.WebTransport.Calls

/-! What the operations of a session do to its book, as moves that each touch one stream. -/
namespace Http2.WebTransport

open Lib Lib.Prog WtSession

/-- All that a book knows of an identifier. -/
inductive Slot
  | unknown
  | live (s : WtStream)
  | closed (sendMax : Nat)

theorem Slot.live_ne_unknown {s : WtStream} : Slot.live s ≠ .unknown := by
  intro h
  cases h

namespace Book

variable {b : Book} {id id' : Nat}

def slot (b : Book) (id : Nat) : Slot :=
  match b.stream? id with
  | some s => .live s
  | none =>
    match b.closedStreamSendMax.get id with
    | some sendMax => .closed sendMax
    | none => .unknown

theorem slot_eq_live {s : WtStream} : b.slot id = .live s ↔ b.stream? id = some s := by
  unfold slot
  cases b.stream? id with
  | none => cases b.closedStreamSendMax.get id <;> simp
  | some s' => simp

theorem slot_eq_unknown :
    b.slot id = .unknown ↔ b.stream? id = none ∧ b.closedStreamSendMax.get id = none := by
  unfold slot
  cases b.stream? id with
  | none => cases b.closedStreamSendMax.get id <;> simp
  | some s => simp

theorem slot_eq_closed {m : Nat} :
    b.slot id = .closed m ↔ b.stream? id = none ∧ b.closedStreamSendMax.get id = some m := by
  unfold slot
  cases b.stream? id with
  | none => cases b.closedStreamSendMax.get id <;> simp
  | some s => simp

@[simp] theorem slot_putStream (s : WtStream) :
    (b.putStream id s).slot id' = if id' = id then .live s else b.slot id' := by
  simp only [slot, stream?, putStream, lookup_insert_ite]
  by_cases h : id' = id <;> simp [h]

@[simp] theorem slot_setFlow (fc : WtFlowControl) : (b.setFlow fc).slot id = b.slot id := rfl

@[simp] theorem slot_logSent (c : Capsule) : (b.logSent c).slot id = b.slot id := rfl

@[simp] theorem slot_logReceived (c : Capsule) : (b.logReceived c).slot id = b.slot id := rfl

@[simp] theorem slot_logEvent (e : WtEvent) : (b.logEvent e).slot id = b.slot id := rfl

/-- There is room to remember one more closed stream. -/
def Room (b : Book) : Prop := b.closedStreamSendMax.inner.length < b.closedStreamSendMax.maxSize

theorem slot_settle {s : WtStream} (hroom : s.isClosed = true → b.Room) :
    (b.settle id s).slot id' =
      if id' = id then (if s.isClosed then .closed s.sendMax else .live s) else b.slot id' := by
  have hput : (b.putStream id s).stream? id = some s := by simp [stream?, putStream]
  unfold settle removeIfClosed
  rw [hput]
  by_cases hclosed : s.isClosed = true
  · simp only [hclosed, if_true]
    unfold slot
    simp only [stream?, putStream, lookup_erase_ite, lookup_insert_ite,
      BoundedMap.get_insert (.inl (hroom hclosed))]
    by_cases h : id' = id <;> simp [h]
  · simp [hclosed]

theorem removeIfClosed_logReceived (c : Capsule) :
    (b.logReceived c).removeIfClosed id = (b.removeIfClosed id).logReceived c := by
  have hsame : (b.logReceived c).stream? id = b.stream? id := rfl
  unfold removeIfClosed
  rw [hsame]
  cases b.stream? id with
  | none => rfl
  | some s =>
    dsimp only
    split <;> rfl

theorem removeIfClosed_logEvent (e : WtEvent) :
    (b.logEvent e).removeIfClosed id = (b.removeIfClosed id).logEvent e := by
  have hsame : (b.logEvent e).stream? id = b.stream? id := rfl
  unfold removeIfClosed
  rw [hsame]
  cases b.stream? id with
  | none => rfl
  | some s =>
    dsimp only
    split <;> rfl

theorem settle_logReceived (s : WtStream) (c : Capsule) :
    (b.logReceived c).settle id s = (b.settle id s).logReceived c :=
  removeIfClosed_logReceived (b := b.putStream id s) c

theorem settle_logEvent (s : WtStream) (e : WtEvent) :
    (b.logEvent e).settle id s = (b.settle id s).logEvent e :=
  removeIfClosed_logEvent (b := b.putStream id s) e

/-- The record that `create_peer_stream` makes. -/
def peerStream (b : Book) (id : Nat) (bidirectional : Bool) : WtStream :=
  WtStream.new id (b.initialSendMaxForPeerStream bidirectional)
    (if bidirectional then b.config.initialMaxStreamDataBidiRemote.toNat
      else b.config.initialMaxStreamDataUni.toNat) bidirectional false

end Book

/-! ## Moves -/

/-- The stream that a capsule is about. -/
def Capsule.streamId? : Capsule → Option Nat
  | .wtResetStream id _ _ | .wtStopSending id _ | .wtStream id _ _ | .wtMaxStreamData id _
  | .wtStreamDataBlocked id _ => some id
  | _ => none

/-- The stream that an event is about. -/
def WtEvent.streamId? : WtEvent → Option Nat
  | .streamOpened id _ | .streamData id _ _ | .streamReset id _ | .stopSending id _ => some id
  | _ => none

/-- Capsules that change nothing in the book of the side that gets them. -/
def Capsule.Passive : Capsule → Prop
  | .wtResetStream _ _ _ | .wtStopSending _ _ | .wtStream _ _ _ | .wtMaxData _
  | .wtMaxStreamData _ _ | .wtMaxStreams _ _ => False
  | _ => True

/-- The flow control with a limit of the peer on streams of one direction raised. -/
def raiseRemote (fc : WtFlowControl) (maximum : Nat) (bidirectional : Bool) : WtFlowControl :=
  if bidirectional then { fc with maxStreamsBidiRemote := maximum }
  else { fc with maxStreamsUniRemote := maximum }

/-- What `handle_stream_data` makes of a stream that took the data. -/
def noteData (s : WtStream) (data : Bytes) : WtStream :=
  if data ≠ [] then s.setHasReceivedData else s

/-- The stream of a capsule or an event exists or existed, as far as the book can tell: streams of
the peer are known by their record, our own by the counters. -/
def Book.Named (b : Book) (id : Nat) : Prop :=
  b.isUncreatedLocalId id = false ∧ (b.isPeerInitiated id = true → b.slot id ≠ .unknown)

/-- What one operation does to the book. -/
inductive Move : Book → Book → Prop
  | openLocal (b : Book) (bidirectional : Bool) (hroom : CanOpen b bidirectional) :
    Move b (b.openLocal bidirectional)
  | sendData (b b' : Book) (id : Nat) (data : Bytes) (fin : Bool)
    (h : SendsData b id data fin b') : Move b b'
  | sendReset (b : Book) (id errorCode : Nat) (s : WtStream) (hcode : errorCode ≤ maxApplicationErrorCode)
    (hlive : b.stream? id = some s) (hcan : s.canSend = true) (hpart : s.hasSendPart = true) :
    Move b (Resets b id errorCode s)
  | sendStop (b : Book) (id errorCode : Nat) (s : WtStream) (hcode : errorCode ≤ maxApplicationErrorCode)
    (hlive : b.stream? id = some s) (hpart : s.hasRecvPart = true)
    (hfirst : s.stopSendingSent = false) :
    Move b ((b.logSent (.wtStopSending id errorCode)).putStream id s.setStopSendingSent)
  | sendDatagram (b : Book) (data : Bytes) : Move b (b.logSent (.datagram data))
  | sendClose (b : Book) (errorCode : UInt32) (reason : String) :
    Move b (b.logSent (closeCapsule errorCode reason))
  | sendDrain (b : Book) : Move b (b.logSent .wtDrainSession)
  | sendMaxData (b : Book) (maximum : Nat) (hcan : CanRaise b maximum) :
    Move b (raiseMaxData b maximum)
  | sendMaxStreamData (b : Book) (id maximum : Nat) (s : WtStream)
    (hmax : maximum ≤ Varint.maxValue) (hlive : b.stream? id = some s)
    (hpart : s.hasRecvPart = true) (hstop : s.stopSendingSent = false)
    (hrecv : s.recvState = .recv) (hlt : s.recvMax < maximum) :
    Move b (raiseMaxStreamData b id maximum s)
  | sendMaxStreams (b : Book) (maximum : Nat) (bidirectional : Bool)
    (hmax : maximum ≤ maxStreamsLimit) (hlt : b.flowControl.maxStreamsLocal bidirectional < maximum) :
    Move b ((b.setFlow (raiseLocal b.flowControl maximum bidirectional)).logSent
      (.wtMaxStreams maximum bidirectional))
  | create (b : Book) (id : Nat) (hpeer : b.isPeerInitiated id = true)
    (haccept : b.flowControl.canAcceptStream id = true) (hunknown : b.slot id = .unknown)
    (hlower : ∀ lower < id, lower % 4 = id % 4 → b.slot lower ≠ .unknown) :
    Move b ((b.putStream id (b.peerStream id (StreamId.isBidirectional id))).logEvent
      (.streamOpened id (StreamId.isBidirectional id)))
  | takeData (b : Book) (id : Nat) (data : Bytes) (fin : Bool) (s s' : WtStream)
    (fc : WtFlowControl) (hlive : b.stream? id = some s)
    (hpart : StreamId.isBidirectional id = true ∨ b.isPeerInitiated id = true)
    (hrecv : s.recvData data.length fin = .ok s')
    (hconsume : b.flowControl.consumeRecv data.length = .ok fc) :
    Move b (((b.putStream id (noteData s' data)).setFlow fc).logReceived (.wtStream id data fin))
  | takeReset (b : Book) (id errorCode : Nat) (s : WtStream) (hlive : b.stream? id = some s)
    (hcan : s.canRecv = true) (hpart : s.hasRecvPart = true) :
    Move b ((b.logReceived (.wtResetStream id errorCode s.recvOffset)).settle id s.recvReset)
  | takeStop (b : Book) (id errorCode : Nat) (hnamed : b.Named id)
    (hsender : b.isReceiveOnlyId id = false) (hfirst : b.stopSendingReceived id = false) :
    Move b ((recordStopSending b id).logReceived (.wtStopSending id errorCode))
  | takeMaxData (b : Book) (maximum : Nat) (hmax : maximum ≤ Varint.maxValue)
    (hlt : b.flowControl.sendMax < maximum) :
    Move b ((b.setFlow { b.flowControl with sendMax := maximum }).logReceived (.wtMaxData maximum))
  | takeMaxStreamData (b : Book) (id maximum : Nat) (s : WtStream) (hlive : b.stream? id = some s)
    (hsender : b.isReceiveOnlyId id = false) (hstop : b.stopSendingReceived id = false)
    (hmax : maximum ≤ Varint.maxValue) (hlt : s.sendMax < maximum) :
    Move b ((b.putStream id { s with sendMax := maximum }).logReceived (.wtMaxStreamData id maximum))
  | takeMaxStreamDataClosed (b : Book) (id maximum last : Nat) (hslot : b.slot id = .closed last)
    (hsender : b.isReceiveOnlyId id = false) (hstop : b.stopSendingReceived id = false)
    (hlt : last < maximum) :
    Move b ({ b with closedStreamSendMax := b.closedStreamSendMax.insert id maximum }.logReceived
      (.wtMaxStreamData id maximum))
  | takeMaxStreamDataLost (b : Book) (id maximum : Nat) (hnamed : b.Named id)
    (hslot : b.slot id = .unknown) :
    Move b (b.logReceived (.wtMaxStreamData id maximum))
  | takeMaxStreams (b : Book) (maximum : Nat) (bidirectional : Bool)
    (hmax : maximum ≤ maxStreamsLimit)
    (hlt : b.flowControl.maxStreamsRemote bidirectional < maximum) :
    Move b ((b.setFlow (raiseRemote b.flowControl maximum bidirectional)).logReceived
      (.wtMaxStreams maximum bidirectional))
  | takePassive (b : Book) (c : Capsule) (hc : c.Passive) : Move b (b.logReceived c)
  | notify (b : Book) (e : WtEvent) (hopened : ∀ id bidirectional, e ≠ .streamOpened id bidirectional)
    (hknown : ∀ id, e.streamId? = some id → b.isPeerInitiated id = true → b.slot id ≠ .unknown) :
    Move b (b.logEvent e)
  | read (b : Book) (id : Nat) (s : WtStream) (hlive : b.stream? id = some s) :
    Move b (b.settle id s.markDataRead)

/-- What is left behind when the stream took the data and the session did not. -/
inductive Stray : Book → Book → Prop
  | halfData (b : Book) (id : Nat) (data : Bytes) (fin : Bool) (s s' : WtStream)
    (hlive : b.stream? id = some s)
    (hpart : StreamId.isBidirectional id = true ∨ b.isPeerInitiated id = true)
    (hrecv : s.recvData data.length fin = .ok s') :
    Stray b (b.putStream id (noteData s' data))

/-! ## Types of identifiers -/

theorem isBidirectional_eq (id : Nat) : StreamId.isBidirectional id = decide (id % 4 < 2) := by
  unfold StreamId.isBidirectional
  rw [StreamId.and_two]
  by_cases h : id % 4 < 2
  · have hzero : id % 4 / 2 * 2 = 0 := by omega
    simp [hzero, h]
  · have hne : id % 4 / 2 * 2 ≠ 0 := by omega
    simp [hne, h]

theorem isUnidirectional_eq (id : Nat) : StreamId.isUnidirectional id = decide (2 ≤ id % 4) := by
  unfold StreamId.isUnidirectional
  rw [StreamId.and_two]
  have hlt : id % 4 < 4 := Nat.mod_lt _ (by decide)
  by_cases h : 2 ≤ id % 4
  · have htwo : id % 4 / 2 * 2 = 2 := by omega
    simp [htwo, h]
  · have hne : id % 4 / 2 * 2 ≠ 2 := by omega
    simp [hne, h]

/-- The low bit of the identifiers that the peer of a role gives out. -/
def peerBit : Role → Nat
  | .client => 1
  | .server => 0

theorem isPeerInitiated_eq (b : Book) (id : Nat) :
    b.isPeerInitiated id = decide (id % 4 % 2 = peerBit b.role) := by
  unfold Book.isPeerInitiated StreamId.isServerInitiated StreamId.isClientInitiated
  rw [StreamId.and_one]
  cases b.role <;> rfl

section Types

variable {b : Book} {id id' : Nat}

theorem isPeerInitiated_congr (h : id % 4 = id' % 4) :
    b.isPeerInitiated id = b.isPeerInitiated id' := by
  rw [isPeerInitiated_eq, isPeerInitiated_eq, h]

theorem isBidirectional_congr (h : id % 4 = id' % 4) :
    StreamId.isBidirectional id = StreamId.isBidirectional id' := by
  rw [isBidirectional_eq, isBidirectional_eq, h]

/-- The limit on streams of the direction of an identifier bounds all identifiers below it. -/
theorem canAcceptStream_mono {fc : WtFlowControl} (hle : id ≤ id') (h : id % 4 = id' % 4)
    (haccept : fc.canAcceptStream id' = true) : fc.canAcceptStream id = true := by
  simp only [WtFlowControl.canAcceptStream, StreamId.and_two, StreamId.and_three, h,
    decide_eq_true_eq] at haccept ⊢
  exact lt_of_le_of_lt hle haccept

end Types

/-! ## What an operation does to the session -/

/-- The book moves, and what goes out and what is reported is queued. -/
structure Acts (s s' : WtSession) : Prop where
  moves : Relation.ReflTransGen Move s.toBook s'.toBook
  decoder : s'.capsuleDecoder = s.capsuleDecoder
  output : ∃ new, s'.sent = new ++ s.sent ∧
    s'.outputBuffer = s.outputBuffer ++ new.reverse.flatMap Capsule.encode
  events : ∃ new, s'.notified = new ++ s.notified ∧ s'.events = s.events ++ new.reverse

namespace Acts

variable {s s' s'' : WtSession}

theorem refl (s : WtSession) : Acts s s :=
  ⟨.refl, rfl, ⟨[], by simp⟩, ⟨[], by simp⟩⟩

theorem trans (h : Acts s s') (h' : Acts s' s'') : Acts s s'' := by
  obtain ⟨out, hsent, hout⟩ := h.output
  obtain ⟨out', hsent', hout'⟩ := h'.output
  obtain ⟨ev, hnot, hev⟩ := h.events
  obtain ⟨ev', hnot', hev'⟩ := h'.events
  refine ⟨h.moves.trans h'.moves, h'.decoder.trans h.decoder, ⟨out' ++ out, ?_, ?_⟩,
    ⟨ev' ++ ev, ?_, ?_⟩⟩
  · rw [hsent', hsent, List.append_assoc]
  · rw [hout', hout, List.reverse_append, List.flatMap_append, List.append_assoc]
  · rw [hnot', hnot, List.append_assoc]
  · rw [hev', hev, List.reverse_append, List.append_assoc]

/-- A move that neither sends nor reports. -/
theorem of_update {b : Book} (h : Move s.toBook b) (hsent : b.sent = s.sent)
    (hnot : b.notified = s.notified) : Acts s { s with toBook := b } :=
  ⟨.single h, rfl, ⟨[], by simp [hsent]⟩, ⟨[], by simp [hnot]⟩⟩

/-- A move that sends one capsule. -/
theorem of_sends {b : Book} {c : Capsule} (h : Move s.toBook b) (hsent : b.sent = c :: s.sent)
    (hnot : b.notified = s.notified) : Acts s (s.sends c b) :=
  ⟨.single h, rfl, ⟨[c], by simp [hsent, sends]⟩, ⟨[], by simp [hnot, sends]⟩⟩

/-- A move that reports one event. -/
theorem of_notify {b : Book} {e : WtEvent} (h : Move s.toBook b) (hsent : b.sent = s.sent)
    (hnot : b.notified = e :: s.notified) :
    Acts s { s with toBook := b, events := s.events ++ [e] } :=
  ⟨.single h, rfl, ⟨[], by simp [hsent]⟩, ⟨[e], by simp [hnot]⟩⟩

/-- The state of the session is no part of its book. -/
theorem setState (h : Acts s s') (state : WtSessionState) : Acts s { s' with state := state } :=
  ⟨h.moves, h.decoder, h.output, h.events⟩

end Acts

namespace Book

variable {b : Book} {id : Nat} {s : WtStream}

@[simp] theorem settle_sent : (b.settle id s).sent = b.sent := by
  unfold settle removeIfClosed
  split
  · rfl
  · split <;> rfl

@[simp] theorem settle_received : (b.settle id s).received = b.received := by
  unfold settle removeIfClosed
  split
  · rfl
  · split <;> rfl

@[simp] theorem settle_notified : (b.settle id s).notified = b.notified := by
  unfold settle removeIfClosed
  split
  · rfl
  · split <;> rfl

end Book

/-! ## The calls that send -/

/-- A call fails and changes nothing, or acts. -/
def Atomic {α : Type} (s : WtSession) (r : WtResult α) (s' : WtSession) : Prop :=
  (∃ e, r = .error e ∧ s' = s) ∨ ∃ a, r = .ok a ∧ Acts s s'

theorem Atomic.map {α β : Type} {s s' : WtSession} {r : WtResult α} {f : α → β}
    (h : Atomic s r s') : Atomic s (r.map f) s' := by
  obtain ⟨e, rfl, hs⟩ | ⟨a, rfl, hacts⟩ := h
  · exact .inl ⟨e, rfl, hs⟩
  · exact .inr ⟨f a, rfl, hacts⟩

section Calls

variable {s : WtSession}

theorem sendStreamData_atomic (hfc : s.flowControl.sendOffset ≤ s.flowControl.sendMax)
    (id : Nat) (data : Bytes) (fin : Bool) :
    Ensures (sendStreamData id data fin) s (Atomic s) := by
  refine ensures_mono (sendStreamData_spec hfc id data fin) fun r s' h => ?_
  obtain hrefused | ⟨-, rfl, b, hb, rfl⟩ := h
  · exact .inl hrefused
  · have hmove := Move.sendData s.toBook b id data fin hb
    obtain ⟨stream, stream', fc, -, -, -, -, -, rfl⟩ := hb
    exact .inr ⟨_, rfl, .of_sends hmove (by simp; rfl) (by simp; rfl)⟩

theorem resetStream_atomic (id errorCode : Nat) :
    Ensures (WtSession.resetStream id errorCode) s (Atomic s) := by
  refine ensures_mono (WtSession.resetStream_spec s id errorCode) fun r s' h => ?_
  obtain ⟨-, hrefused⟩ | ⟨hcode, rfl, stream, hlive, hcan, hpart, rfl⟩ := h
  · exact .inl hrefused
  · refine .inr ⟨_, rfl, .of_sends (.sendReset _ id errorCode stream hcode hlive hcan hpart) ?_ ?_⟩
    · simp only [Resets, Book.settle_sent, Book.logSent]
    · simp only [Resets, Book.settle_notified, Book.logSent]

theorem stopSending_atomic (id errorCode : Nat) :
    Ensures (stopSending id errorCode) s (Atomic s) := by
  refine ensures_mono (stopSending_spec s id errorCode) fun r s' h => ?_
  obtain ⟨-, hrefused⟩ | ⟨hcode, rfl, stream, hlive, hpart, hfirst, -, rfl⟩ := h
  · exact .inl hrefused
  · exact .inr ⟨_, rfl,
      .of_sends (.sendStop _ id errorCode stream hcode hlive hpart hfirst) rfl rfl⟩

theorem sendDatagram_atomic (data : Bytes) : Ensures (sendDatagram data) s (Atomic s) := by
  refine ensures_mono (sendDatagram_spec s data) fun r s' h => ?_
  obtain hrefused | ⟨-, rfl, rfl⟩ := h
  · exact .inl hrefused
  · exact .inr ⟨_, rfl, .of_sends (.sendDatagram _ data) rfl rfl⟩

theorem close_atomic (errorCode : UInt32) (reason : String) :
    Ensures (close errorCode reason) s (Atomic s) := by
  refine ensures_mono (close_spec s errorCode reason) fun r s' h => ?_
  obtain ⟨-, hrefused⟩ | ⟨-, rfl, rfl⟩ := h
  · exact .inl hrefused
  · exact .inr ⟨_, rfl, (Acts.of_sends (.sendClose _ errorCode reason) rfl rfl).setState _⟩

theorem drain_atomic : Ensures drain s (Atomic s) := by
  refine ensures_mono (drain_spec s) fun r s' h => ?_
  obtain hrefused | ⟨-, rfl, rfl⟩ := h
  · exact .inl hrefused
  · exact .inr ⟨_, rfl, (Acts.of_sends (.sendDrain _) rfl rfl).setState _⟩

theorem sendMaxData_atomic (maximum : Nat) : Ensures (sendMaxData maximum) s (Atomic s) := by
  refine ensures_mono (sendMaxData_spec s maximum) fun r s' h => ?_
  obtain ⟨-, hrefused⟩ | ⟨hcan, rfl, rfl⟩ := h
  · exact .inl hrefused
  · exact .inr ⟨_, rfl, .of_sends (.sendMaxData _ maximum hcan) rfl rfl⟩

theorem growRecvWindow_atomic (increment : Nat) :
    Ensures (growRecvWindow increment) s (Atomic s) := by
  refine ensures_mono (growRecvWindow_spec s increment) fun r s' h => ?_
  obtain ⟨-, hrefused⟩ | ⟨hcan, rfl, rfl⟩ := h
  · exact .inl hrefused
  · exact .inr ⟨_, rfl, .of_sends (.sendMaxData _ _ hcan) rfl rfl⟩

theorem sendMaxStreamData_atomic (id maximum : Nat) :
    Ensures (sendMaxStreamData id maximum) s (Atomic s) := by
  refine ensures_mono (sendMaxStreamData_spec s id maximum) fun r s' h => ?_
  obtain ⟨-, hrefused⟩ | ⟨hmax, rfl, stream, hlive, hpart, hstop, hrecv, hlt, rfl⟩ := h
  · exact .inl hrefused
  · exact .inr ⟨_, rfl, .of_sends
      (.sendMaxStreamData _ id maximum stream hmax hlive hpart hstop hrecv hlt) rfl rfl⟩

theorem growStreamRecvWindow_atomic (id increment : Nat) :
    Ensures (growStreamRecvWindow id increment) s (Atomic s) := by
  refine ensures_mono (growStreamRecvWindow_spec s id increment) fun r s' h => ?_
  obtain ⟨-, hrefused⟩ | ⟨rfl, stream, m, hlive, hpart, hstop, hrecv, hlt, -, hmax, rfl⟩ := h
  · exact .inl hrefused
  · exact .inr ⟨_, rfl, .of_sends
      (.sendMaxStreamData _ id m stream hmax hlive hpart hstop hrecv hlt) rfl rfl⟩

theorem sendMaxStreams_atomic (maximum : Nat) (bidirectional : Bool) :
    Ensures (sendMaxStreams maximum bidirectional) s (Atomic s) := by
  refine ensures_mono (sendMaxStreams_spec s maximum bidirectional) fun r s' h => ?_
  obtain hrefused | ⟨-, rfl, hmax, hlt, rfl⟩ := h
  · exact .inl hrefused
  · exact .inr ⟨_, rfl, .of_sends (.sendMaxStreams _ maximum bidirectional hmax hlt) rfl rfl⟩

theorem growMaxStreams_atomic (increment : Nat) (bidirectional : Bool) :
    Ensures (growMaxStreams increment bidirectional) s (Atomic s) := by
  refine ensures_mono (growMaxStreams_spec s increment bidirectional) fun r s' h => ?_
  obtain hrefused | ⟨-, rfl, m, hmax, hlt, -, rfl⟩ := h
  · exact .inl hrefused
  · exact .inr ⟨_, rfl, .of_sends (.sendMaxStreams _ m bidirectional hmax hlt) rfl rfl⟩

theorem openStream_atomic (bidirectional : Bool) :
    Ensures (openStream bidirectional) s (Atomic s) := by
  refine ensures_mono (openStream_spec s bidirectional) fun r s' h => ?_
  obtain hrefused | ⟨-, hroom, rfl, rfl⟩ := h
  · exact .inl hrefused
  · refine .inr ⟨_, rfl, .of_update (.openLocal _ bidirectional hroom) ?_ ?_⟩
    · cases bidirectional <;> rfl
    · cases bidirectional <;> rfl

/-- The calls that send are atomic, as long as the session keeps within the limit of its peer. -/
theorem send_atomic (hfc : s.flowControl.sendOffset ≤ s.flowControl.sendMax) {call : WtCall}
    (hsend : call.isSend = true) : Ensures call.exec s (Atomic s) := by
  have hmap : ∀ {α : Type} {m : Wt α} {f : α → WtValue}, Ensures m s (Atomic s) →
      Ensures (m >>= fun a => pure (f a)) s (Atomic s) :=
    fun h => ensures_map.2 (ensures_mono h fun _ _ => Atomic.map)
  cases call with
  | initiate | feed _ | process | pollOutput | pollEvent => cases hsend
  | openBidiStream => exact hmap (openStream_atomic true)
  | openUniStream => exact hmap (openStream_atomic false)
  | sendStreamData id data fin => exact hmap (sendStreamData_atomic hfc id data fin)
  | resetStream id errorCode => exact hmap (resetStream_atomic id errorCode)
  | stopSending id errorCode => exact hmap (stopSending_atomic id errorCode)
  | sendDatagram data => exact hmap (sendDatagram_atomic data)
  | close errorCode reason => exact hmap (close_atomic errorCode reason)
  | sendMaxData maximum => exact hmap (sendMaxData_atomic maximum)
  | sendMaxStreamData id maximum => exact hmap (sendMaxStreamData_atomic id maximum)
  | sendMaxStreams maximum bidirectional => exact hmap (sendMaxStreams_atomic maximum bidirectional)
  | growRecvWindow increment => exact hmap (growRecvWindow_atomic increment)
  | growStreamRecvWindow id increment => exact hmap (growStreamRecvWindow_atomic id increment)
  | growMaxStreams increment bidirectional =>
    exact hmap (growMaxStreams_atomic increment bidirectional)
  | drain => exact hmap drain_atomic

end Calls

end Http2.WebTransport
