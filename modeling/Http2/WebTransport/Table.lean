import Http2.Lib.History
import Http2.WebTransport.Bounds

/-! The stream table of a session: which identifiers are in it, which are recorded as closed, and
what was reported of them. -/
namespace Http2.WebTransport

open Lib Lib.Prog WtSession

/-! ## The table and the record of closed streams -/

/-- The table holds open streams, the record holds the others. -/
structure Records (b : Book) : Prop where
  size : b.closedStreamSendMax.maxSize = streamIdRecordMaxSize
  count : b.closedStreamSendMax.inner.length ≤ b.removedIds.length
  apart : b.Streams fun id _ => b.closedStreamSendMax.get id = none
  live : b.Streams fun _ s => s.isClosed = false

section Records

variable {b b' : Book} {id : Nat} {s : WtStream}

theorem Records.room (h : Records b) (hcount : b.removedIds.length < streamIdRecordMaxSize) :
    b.Room := by
  have hle := h.count
  have hsize := h.size
  unfold Book.Room
  omega

/-- The rest of the book does not matter. -/
theorem Records.of_eq (h : Records b) (hstreams : b'.streams = b.streams)
    (hclosed : b'.closedStreamSendMax = b.closedStreamSendMax)
    (hremoved : b'.removedIds = b.removedIds) : Records b' := by
  obtain ⟨hsize, hcount, hapart, hlive⟩ := h
  constructor
  · rw [hclosed]
    exact hsize
  · rw [hclosed, hremoved]
    exact hcount
  · intro id s h
    rw [hclosed]
    exact hapart id s (by rwa [Book.stream?, hstreams] at h)
  · intro id s h
    exact hlive id s (by rwa [Book.stream?, hstreams] at h)

theorem Records.putStream (h : Records b) (hnone : b.closedStreamSendMax.get id = none)
    (hopen : s.isClosed = false) : Records (b.putStream id s) :=
  ⟨h.size, h.count, Book.Streams.putStream h.apart hnone, Book.Streams.putStream h.live hopen⟩

/-- A stream whose closing put it on record leaves room for that. -/
theorem settle_room (h : Records b)
    (hcount : (b.settle id s).removedIds.length ≤ streamIdRecordMaxSize)
    (hclosed : s.isClosed = true) : b.Room := by
  refine h.room ?_
  have hput : (b.putStream id s).stream? id = some s := by simp [Book.stream?, Book.putStream]
  unfold Book.settle Book.removeIfClosed at hcount
  rw [hput] at hcount
  simp only [hclosed, if_true] at hcount
  exact hcount

theorem Records.settle (h : Records b) (hnone : b.closedStreamSendMax.get id = none)
    (hcount : (b.settle id s).removedIds.length ≤ streamIdRecordMaxSize) :
    Records (b.settle id s) := by
  by_cases hclosed : s.isClosed = true
  · have hroom := settle_room h hcount hclosed
    have hput : (b.putStream id s).stream? id = some s := by simp [Book.stream?, Book.putStream]
    unfold Book.settle Book.removeIfClosed
    rw [hput]
    simp only [hclosed, if_true]
    -- what is left in the table was there before, under another identifier
    have hleft : ∀ id' s', ((b.putStream id s).streams.erase id).lookup id' = some s' →
        id' ≠ id ∧ b.stream? id' = some s' := by
      intro id' s' hlive
      rw [lookup_erase_ite] at hlive
      by_cases heq : id' = id
      · rw [if_pos heq] at hlive
        cases hlive
      · rw [if_neg heq] at hlive
        simp only [Book.putStream, lookup_insert_ite, if_neg heq] at hlive
        exact ⟨heq, hlive⟩
    refine ⟨h.size, ?_, fun id' s' hlive => ?_, fun id' s' hlive => ?_⟩
    · refine Nat.le_trans BoundedMap.length_insert ?_
      have hle := h.count
      split
      · exact Nat.le_succ_of_le hle
      · exact Nat.succ_le_succ hle
    · obtain ⟨hne, hold⟩ := hleft id' s' hlive
      refine (BoundedMap.get_insert (.inl hroom) id').trans ?_
      rw [if_neg hne]
      exact h.apart id' s' hold
    · exact h.live id' s' (hleft id' s' hlive).2
  · rw [settle_of_open (eq_false_of_ne_true hclosed)]
    exact h.putStream hnone (eq_false_of_ne_true hclosed)

/-- Taking data never closes a stream. -/
theorem isClosed_recvData {s s' : WtStream} {data : Bytes} {fin : Bool} (hopen : s.isClosed = false)
    (h : s.recvData data.length fin = .ok s') : (noteData s' data).isClosed = false := by
  obtain ⟨hcan, -, rfl⟩ := WtStream.recvData_eq_ok h
  have hterminal : (if fin then RecvState.dataRecvd else s.recvState).isTerminal = false := by
    rw [WtStream.recvState_of_canRecv hcan]
    cases fin <;> rfl
  have hsame : (noteData { s with
      recvOffset := saturatingAdd s.recvOffset data.length
      recvState := if fin then .dataRecvd else s.recvState } data).isClosed =
      { s with recvState := if fin then .dataRecvd else s.recvState : WtStream }.isClosed := by
    unfold noteData
    split <;> rfl
  rw [hsame]
  simp only [WtStream.isClosed, hterminal, Bool.and_false] at hopen ⊢
  split
  · rfl
  · split
    · rename_i hbidi hlocal
      rw [if_neg hbidi, if_pos hlocal] at hopen
      exact hopen
    · rfl

theorem removedIds_settle (b : Book) (id : Nat) (s : WtStream) :
    b.removedIds.length ≤ (b.settle id s).removedIds.length := by
  unfold Book.settle Book.removeIfClosed
  split
  · exact le_rfl
  · split
    · exact Nat.le_succ _
    · exact le_rfl

/-- Removed streams stay removed. -/
theorem Drift.removedIds (h : Drift b b') : b.removedIds.length ≤ b'.removedIds.length := by
  obtain h | h := h
  · cases h with
    | openLocal opens => cases opens <;> exact le_rfl
    | sendData _ id data fin h =>
      obtain ⟨s, s', fc, -, -, -, -, -, rfl⟩ := h
      exact removedIds_settle ((b.setFlow fc).logSent (.wtStream id data fin)) id s'
    | sendReset id errorCode s =>
      exact removedIds_settle (b.logSent (.wtResetStream id errorCode s.sendOffset)) id s.sendReset
    | takeReset id errorCode s =>
      exact removedIds_settle (b.logReceived (.wtResetStream id errorCode s.recvOffset)) id
        s.recvReset
    | takeStop id errorCode =>
      obtain ⟨_, _, h⟩ := b.recordStopSending_frame id
      rw [h]
      exact le_rfl
    | read id s => exact removedIds_settle b id s.markDataRead
    | sendStop | sendDatagram | sendClose | sendDrain | sendMaxData | sendMaxStreamData
    | sendMaxStreams | create | takeData | takeMaxData | takeMaxStreamData | takeMaxStreamDataClosed
    | takeMaxStreamDataLost | takeMaxStreams | takePassive | notify => exact le_rfl
  · cases h
    exact le_rfl

theorem isClosed_new {sendMax recvMax : Nat} {bidirectional locally : Bool} :
    (WtStream.new id sendMax recvMax bidirectional locally).isClosed = false := by
  cases bidirectional <;> cases locally <;> rfl

theorem Drift.records (h : Drift b b') (hrecords : Records b) (hnew : ∀ bidirectional,
      b.slot (b.nextStreamId bidirectional) = .unknown)
    (hcount : b'.removedIds.length ≤ streamIdRecordMaxSize) : Records b' := by
  have hapart : ∀ {id s}, b.stream? id = some s → b.closedStreamSendMax.get id = none :=
    fun hlive => hrecords.apart _ _ hlive
  have hput : ∀ {id s} (s' : WtStream), b.stream? id = some s → s'.isClosed = s.isClosed →
      Records (b.putStream id s') :=
    fun s' hlive hsame =>
      hrecords.putStream (hapart hlive) (hsame.trans (hrecords.live _ _ hlive))
  obtain h | h := h
  · cases h with
    | openLocal opens =>
      have hnone := (Book.slot_eq_unknown.1 (hnew opens)).2
      cases opens <;> exact (hrecords.putStream hnone isClosed_new).of_eq rfl rfl rfl
    | sendData _ id data fin h =>
      obtain ⟨s, s', fc, hlive, -, -, -, -, rfl⟩ := h
      have hlogged : Records ((b.setFlow fc).logSent (.wtStream id data fin)) :=
        hrecords.of_eq rfl rfl rfl
      exact hlogged.settle (hapart hlive) hcount
    | sendReset id errorCode s hcode hlive =>
      have hlogged : Records (b.logSent (.wtResetStream id errorCode s.sendOffset)) :=
        hrecords.of_eq rfl rfl rfl
      exact hlogged.settle (hapart hlive) hcount
    | takeReset id errorCode s hlive =>
      have hlogged : Records (b.logReceived (.wtResetStream id errorCode s.recvOffset)) :=
        hrecords.of_eq rfl rfl rfl
      exact hlogged.settle (hapart hlive) hcount
    | read id s hlive => exact hrecords.settle (hapart hlive) hcount
    | sendStop id errorCode s hcode hlive =>
      exact (hput s.setStopSendingSent hlive rfl).of_eq rfl rfl rfl
    | sendMaxStreamData id maximum s hmax hlive =>
      exact (hput { s with recvMax := maximum } hlive rfl).of_eq rfl rfl rfl
    | takeMaxStreamData id maximum s hlive =>
      exact (hput { s with sendMax := maximum } hlive rfl).of_eq rfl rfl rfl
    | create id hpeer haccept hunknown =>
      exact (hrecords.putStream (Book.slot_eq_unknown.1 hunknown).2 isClosed_new).of_eq rfl rfl rfl
    | takeData id data fin s s' fc hlive hpart hrecv =>
      have htaken := isClosed_recvData (hrecords.live id s hlive) hrecv
      exact (hrecords.putStream (hapart hlive) htaken).of_eq rfl rfl rfl
    | takeStop id errorCode =>
      unfold recordStopSending
      cases hlive : b.stream? id with
      | none => exact hrecords.of_eq rfl rfl rfl
      | some s =>
        exact (hput s.setStopSendingReceived hlive rfl).of_eq rfl rfl rfl
    | takeMaxStreamDataClosed id maximum last hslot =>
      obtain ⟨hnone, hlast⟩ := Book.slot_eq_closed.1 hslot
      have hsome : (b.closedStreamSendMax.get id).isSome = true := by rw [hlast]; rfl
      have hfull : b.closedStreamSendMax.inner.length ≤ b.closedStreamSendMax.maxSize := by
        rw [hrecords.size]
        exact Nat.le_trans hrecords.count hcount
      refine ⟨hrecords.size, ?_, fun id' s' hlive => ?_, hrecords.live⟩
      · refine Nat.le_trans BoundedMap.length_insert ?_
        rw [if_pos hsome]
        exact hrecords.count
      · have hlive' : b.stream? id' = some s' := hlive
        refine (BoundedMap.get_insert (.inr ⟨hfull, hsome⟩) id').trans ?_
        rw [if_neg]
        · exact hapart hlive'
        · rintro rfl
          cases hnone.symm.trans hlive'
    | sendDatagram | sendClose | sendDrain | sendMaxData | sendMaxStreams | takeMaxData
    | takeMaxStreamDataLost | takeMaxStreams | takePassive | notify =>
      exact hrecords.of_eq rfl rfl rfl
  · cases h with
    | halfData id data fin s s' hlive hpart hrecv =>
      exact hrecords.putStream (hapart hlive) (isClosed_recvData (hrecords.live id s hlive) hrecv)

end Records

/-! ## Which identifiers a book knows -/

/-- What a move does to the identifiers that a book knows and to what it reported. -/
inductive Growth (b b' : Book) : Prop
  | none (hknown : ∀ id, b'.slot id = .unknown ↔ b.slot id = .unknown)
    (hopened : b'.openedIds = b.openedIds)
    (hnext : ∀ bidirectional, b'.nextStreamId bidirectional = b.nextStreamId bidirectional)
    (hreports : b'.notified = b.notified ∨ ∃ e, b'.notified = e :: b.notified ∧
      (∀ id bidirectional, e ≠ .streamOpened id bidirectional) ∧
      ∀ id, e.streamId? = some id → b.isPeerInitiated id = true → b.slot id ≠ .unknown)
  | opens (bidirectional : Bool) (h : b' = b.openLocal bidirectional)
  | creates (id : Nat) (hpeer : b.isPeerInitiated id = true)
    (haccept : b.flowControl.canAcceptStream id = true) (hunknown : b.slot id = .unknown)
    (hlower : ∀ lower < id, lower % 4 = id % 4 → b.slot lower ≠ .unknown)
    (h : b' = (b.putStream id (b.peerStream id (StreamId.isBidirectional id))).logEvent
      (.streamOpened id (StreamId.isBidirectional id)))

section Growth

variable {b b' : Book} {id id' : Nat} {s : WtStream}

theorem slot_openLocal (bidirectional : Bool) : ∃ s, ∀ id', (b.openLocal bidirectional).slot id' =
    if id' = b.nextStreamId bidirectional then .live s else b.slot id' := by
  cases bidirectional <;> exact ⟨_, fun id' => Book.slot_putStream _⟩

/-- A stream that was there is still known when it is put back. -/
theorem known_putStream (hlive : b.stream? id = some s) (s' : WtStream) :
    (b.putStream id s').slot id' = .unknown ↔ b.slot id' = .unknown := by
  rw [Book.slot_putStream]
  by_cases h : id' = id
  · rw [if_pos h, h, Book.slot_eq_live.2 hlive]
    exact ⟨fun h => absurd h Slot.live_ne_unknown, fun h => absurd h Slot.live_ne_unknown⟩
  · rw [if_neg h]

theorem known_settle (hlive : b.stream? id = some s) {s' : WtStream}
    (hroom : s'.isClosed = true → b.Room) :
    (b.settle id s').slot id' = .unknown ↔ b.slot id' = .unknown := by
  rw [Book.slot_settle hroom]
  by_cases h : id' = id
  · rw [if_pos h, h, Book.slot_eq_live.2 hlive]
    refine ⟨fun h => ?_, fun h => absurd h Slot.live_ne_unknown⟩
    split at h <;> cases h
  · rw [if_neg h]

theorem growth_settle {b₀ : Book} {s' : WtStream} (hslot : ∀ id, b₀.slot id = b.slot id)
    (hopened : b₀.openedIds = b.openedIds)
    (hnext : ∀ bidirectional, b₀.nextStreamId bidirectional = b.nextStreamId bidirectional)
    (hnotified : b₀.notified = b.notified) (hrecords : Records b₀) (hlive : b₀.stream? id = some s)
    (hcount : (b₀.settle id s').removedIds.length ≤ streamIdRecordMaxSize) :
    Growth b (b₀.settle id s') := by
  obtain ⟨_, _, _, hframe⟩ := Book.settle_frame b₀ id s'
  refine .none (fun id' => ?_) ?_ (fun bidirectional => ?_) (.inl ?_)
  · rw [known_settle hlive (settle_room hrecords hcount), hslot]
  · rw [hframe]
    exact hopened
  · rw [hframe]
    exact hnext bidirectional
  · rw [hframe]
    exact hnotified

/-- Raising the limit of a closed stream keeps it on record. -/
theorem slot_raiseClosed {maximum last : Nat} (hrecords : Records b)
    (hcount : b.removedIds.length ≤ streamIdRecordMaxSize) (hslot : b.slot id = .closed last) :
    Book.slot { b with closedStreamSendMax := b.closedStreamSendMax.insert id maximum } id' =
      if id' = id then .closed maximum else b.slot id' := by
  obtain ⟨hnone, hlast⟩ := Book.slot_eq_closed.1 hslot
  have hsome : (b.closedStreamSendMax.get id).isSome = true := by rw [hlast]; rfl
  have hfull : b.closedStreamSendMax.inner.length ≤ b.closedStreamSendMax.maxSize := by
    rw [hrecords.size]
    exact Nat.le_trans hrecords.count hcount
  have hget := @BoundedMap.get_insert _ _ _ _ id maximum (.inr ⟨hfull, hsome⟩) id'
  by_cases h : id' = id
  · rw [if_pos h] at hget ⊢
    exact Book.slot_eq_closed.2 ⟨h ▸ hnone, hget⟩
  · rw [if_neg h] at hget ⊢
    unfold Book.slot
    rw [hget]
    rfl

theorem Drift.growth (h : Drift b b') (hrecords : Records b)
    (hcount : b'.removedIds.length ≤ streamIdRecordMaxSize) : Growth b b' := by
  have hlogged : ∀ {b₀ : Book}, b₀.streams = b.streams →
      b₀.closedStreamSendMax = b.closedStreamSendMax → b₀.removedIds = b.removedIds → Records b₀ :=
    hrecords.of_eq
  obtain h | h := h
  · cases h with
    | openLocal opens => exact .opens opens rfl
    | create id hpeer haccept hunknown hlower =>
      exact .creates id hpeer haccept hunknown hlower rfl
    | sendData _ id data fin h =>
      obtain ⟨s, s', fc, hlive, -, -, -, -, rfl⟩ := h
      exact growth_settle (fun _ => rfl) rfl (fun _ => rfl) rfl (hlogged rfl rfl rfl) hlive hcount
    | sendReset id errorCode s hcode hlive =>
      exact growth_settle (fun _ => rfl) rfl (fun _ => rfl) rfl (hlogged rfl rfl rfl) hlive hcount
    | takeReset id errorCode s hlive =>
      exact growth_settle (fun _ => rfl) rfl (fun _ => rfl) rfl (hlogged rfl rfl rfl) hlive hcount
    | read id s hlive =>
      exact growth_settle (fun _ => rfl) rfl (fun _ => rfl) rfl hrecords hlive hcount
    | takeStop id errorCode =>
      obtain ⟨_, _, hframe⟩ := b.recordStopSending_frame id
      refine .none (fun id' => slot_recordStopSending b id id') ?_ (fun bidirectional => ?_)
        (.inl (recordStopSending_notified b id))
      · rw [hframe]
        rfl
      · rw [hframe]
        rfl
    | sendStop id errorCode s hcode hlive =>
      refine .none (fun id' => ?_) rfl (fun _ => rfl) (.inl rfl)
      exact @known_putStream (b.logSent (.wtStopSending id errorCode)) id id' s hlive _
    | sendMaxStreamData id maximum s hmax hlive =>
      exact .none (fun id' => known_putStream hlive _) rfl (fun _ => rfl) (.inl rfl)
    | takeMaxStreamData id maximum s hlive =>
      exact .none (fun id' => known_putStream hlive _) rfl (fun _ => rfl) (.inl rfl)
    | takeData id data fin s s' fc hlive =>
      exact .none (fun id' => known_putStream hlive _) rfl (fun _ => rfl) (.inl rfl)
    | takeMaxStreamDataClosed id maximum last hslot =>
      refine .none (fun id' => ?_) rfl (fun _ => rfl) (.inl rfl)
      rw [Book.slot_logReceived, slot_raiseClosed hrecords hcount hslot]
      by_cases h : id' = id
      · rw [if_pos h, h, hslot]
        constructor
        · intro h
          cases h
        · intro h
          cases h
      · rw [if_neg h]
    | notify e hopened hknown =>
      exact .none (fun _ => Iff.rfl) rfl (fun _ => rfl) (.inr ⟨e, rfl, hopened, hknown⟩)
    | sendDatagram | sendClose | sendDrain | sendMaxData | sendMaxStreams | takeMaxData
    | takeMaxStreamDataLost | takeMaxStreams | takePassive =>
      exact .none (fun _ => Iff.rfl) rfl (fun _ => rfl) (.inl rfl)
  · cases h with
    | halfData id data fin s s' hlive =>
      exact .none (fun id' => known_putStream hlive _) rfl (fun _ => rfl) (.inl rfl)

end Growth

/-! ## The table -/

/-- The streams of one type that were reported as opened, the most recent first. -/
def openings (type : Nat) (es : List WtEvent) : List Nat :=
  es.filterMap fun
    | .streamOpened id _ => if id % 4 = type then some id else none
    | _ => none

/-- The first `n` identifiers of one type. -/
def firstIds (type n : Nat) : List Nat := (List.range n).map (4 * · + type)

/-- What is reported of a stream of the peer comes after the report that it was opened. -/
def Heralded (b : Book) (e : WtEvent) (earlier : List WtEvent) : Prop :=
  ∀ id, e.streamId? = some id → (∀ bidirectional, e ≠ .streamOpened id bidirectional) →
    b.isPeerInitiated id = true → ∃ bidirectional, .streamOpened id bidirectional ∈ earlier

/-- What a session knows of its streams. -/
structure Table (b : Book) : Prop where
  numbered : b.Numbered
  records : Records b
  locals : ∀ id, b.isPeerInitiated id = false →
    (b.slot id ≠ .unknown ↔ id < b.nextStreamId (StreamId.isBidirectional id))
  opened : ∀ id, id ∈ b.openedIds ↔ b.isPeerInitiated id = false ∧ b.slot id ≠ .unknown
  peers : ∀ type < 4, b.isPeerInitiated type = true →
    ∃ n, n ≤ b.flowControl.maxStreamsLocal (StreamId.isBidirectional type) ∧
      (∀ i, b.slot (4 * i + type) ≠ .unknown ↔ i < n) ∧
      openings type b.notified = (firstIds type n).reverse
  silent : ∀ type < 4, b.isPeerInitiated type = false → openings type b.notified = []
  heralded : Always (Heralded b) b.notified

section Table

variable {b b' : Book} {id : Nat}

theorem isPeerInitiated_of_role (h : b'.role = b.role) (id : Nat) :
    b'.isPeerInitiated id = b.isPeerInitiated id := by
  rw [isPeerInitiated_eq, isPeerInitiated_eq, h]

/-- Our own next identifier is of the type it is meant for. -/
theorem nextStreamId_type (hnumbered : b.Numbered) (bidirectional : Bool) :
    b.isPeerInitiated (b.nextStreamId bidirectional) = false ∧
      StreamId.isBidirectional (b.nextStreamId bidirectional) = bidirectional := by
  have hmod : b.nextStreamId bidirectional % 4
      = StreamId.first (b.role == .client) bidirectional % 4 := by
    rw [hnumbered bidirectional]
    omega
  rw [isPeerInitiated_eq, isBidirectional_eq, hmod]
  cases b.role <;> cases bidirectional <;> decide

theorem Table.next_unknown (h : Table b) (bidirectional : Bool) :
    b.slot (b.nextStreamId bidirectional) = .unknown := by
  obtain ⟨hlocal, hbidi⟩ := nextStreamId_type h.numbered bidirectional
  by_contra hknown
  have hlt := (h.locals _ hlocal).1 hknown
  rw [hbidi] at hlt
  exact Nat.lt_irrefl _ hlt

theorem FlowStep.maxStreamsLocal_le {fc fc' : WtFlowControl} {sent received : List Capsule}
    (h : FlowStep fc fc' sent received) (bidirectional : Bool) :
    fc.maxStreamsLocal bidirectional ≤ fc'.maxStreamsLocal bidirectional := by
  cases h with
  | opens opened => cases opened <;> exact le_rfl
  | sends _ _ _ _ _ h =>
    obtain ⟨-, rfl⟩ := consumeSend_ok h
    exact le_rfl
  | takes _ _ _ _ h =>
    obtain ⟨-, rfl⟩ := consumeRecv_ok h
    exact le_rfl
  | raisesStreams maximum raised hmax hlt =>
    cases raised <;> cases bidirectional <;> first | exact le_rfl | exact Nat.le_of_lt hlt
  | grantsStreams maximum raised => cases raised <;> exact le_rfl
  | stays | raises | grants => exact le_rfl

/-- An identifier that is accepted is one of as many as the limit says. -/
theorem accepted_index {fc : WtFlowControl} (haccept : fc.canAcceptStream id = true) :
    id / 4 < fc.maxStreamsLocal (StreamId.isBidirectional id) := by
  simp only [WtFlowControl.canAcceptStream, StreamId.and_three, decide_eq_true_eq, saturatingAdd,
    saturatingMul] at haccept
  have hsame : (if id &&& 0x02 == 0 then fc.maxStreamsBidiLocal else fc.maxStreamsUniLocal)
      = fc.maxStreamsLocal (StreamId.isBidirectional id) := rfl
  rw [hsame] at haccept
  omega

theorem openings_cons (type : Nat) (e : WtEvent) (es : List WtEvent) :
    openings type (e :: es) = openings type [e] ++ openings type es := by
  simp only [openings, List.filterMap_cons]
  split <;> simp

theorem openings_other {type : Nat} {e : WtEvent}
    (h : ∀ id bidirectional, e ≠ .streamOpened id bidirectional) : openings type [e] = [] := by
  cases e with
  | streamOpened id bidirectional => exact absurd rfl (h id bidirectional)
  | streamData | streamReset | stopSending | datagramReceived | sessionDraining | sessionClosed =>
    rfl

/-- Each report that a stream was opened is found among them. -/
theorem mem_openings {type : Nat} {es : List WtEvent} :
    id ∈ openings type es ↔ id % 4 = type ∧ ∃ bidirectional, .streamOpened id bidirectional ∈ es := by
  simp only [openings, List.mem_filterMap]
  constructor
  · rintro ⟨e, hmem, h⟩
    cases e with
    | streamOpened id' bidirectional =>
      simp only [Option.ite_none_right_eq_some, Option.some.injEq] at h
      obtain ⟨htype, rfl⟩ := h
      exact ⟨htype, bidirectional, hmem⟩
    | streamData | streamReset | stopSending | datagramReceived | sessionDraining
    | sessionClosed => cases h
  · rintro ⟨htype, bidirectional, hmem⟩
    exact ⟨_, hmem, by simp [htype]⟩

theorem mem_firstIds {type n id : Nat} (htype : type < 4) :
    id ∈ firstIds type n ↔ id % 4 = type ∧ id / 4 < n := by
  simp only [firstIds, List.mem_map, List.mem_range]
  constructor
  · rintro ⟨i, hi, rfl⟩
    omega
  · rintro ⟨hmod, hlt⟩
    exact ⟨id / 4, hlt, by omega⟩

/-- A stream of the peer that is known was reported. -/
theorem Table.reported (h : Table b) (hpeer : b.isPeerInitiated id = true)
    (hknown : b.slot id ≠ .unknown) : ∃ bidirectional, .streamOpened id bidirectional ∈ b.notified := by
  have hlt : id % 4 < 4 := Nat.mod_lt _ (by decide)
  have hpeer' : b.isPeerInitiated (id % 4) = true := by
    rw [isPeerInitiated_congr (Nat.mod_mod ..)]
    exact hpeer
  obtain ⟨n, -, hsegment, hopenings⟩ := h.peers (id % 4) hlt hpeer'
  have hid : 4 * (id / 4) + id % 4 = id := by omega
  have hindex : id / 4 < n := by
    rw [← hsegment, hid]
    exact hknown
  have hmem : id ∈ openings (id % 4) b.notified := by
    rw [hopenings, List.mem_reverse, mem_firstIds hlt]
    exact ⟨rfl, hindex⟩
  exact (mem_openings.1 hmem).2

/-- A move that makes no stream known keeps the table. -/
theorem Table.of_none (h : Table b) (hrole : b'.role = b.role) (hnumbered : b'.Numbered)
    (hrecords : Records b') (hlimits : ∀ bidirectional, b.flowControl.maxStreamsLocal bidirectional ≤
      b'.flowControl.maxStreamsLocal bidirectional)
    (hknown : ∀ id, b'.slot id = .unknown ↔ b.slot id = .unknown)
    (hopened : b'.openedIds = b.openedIds)
    (hnext : ∀ bidirectional, b'.nextStreamId bidirectional = b.nextStreamId bidirectional)
    (hreports : b'.notified = b.notified ∨ ∃ e, b'.notified = e :: b.notified ∧
      (∀ id bidirectional, e ≠ .streamOpened id bidirectional) ∧
      ∀ id, e.streamId? = some id → b.isPeerInitiated id = true → b.slot id ≠ .unknown) :
    Table b' := by
  have hpeer := fun id => isPeerInitiated_of_role hrole id
  have hopenings : ∀ type, openings type b'.notified = openings type b.notified := by
    intro type
    obtain hsame | ⟨e, hcons, hother, -⟩ := hreports
    · rw [hsame]
    · rw [hcons, openings_cons, openings_other hother]
      rfl
  have hheralded : Heralded b' = Heralded b := by
    funext e earlier
    simp only [Heralded, hpeer]
  refine ⟨hnumbered, hrecords, fun id hlocal => ?_, fun id => ?_, fun type hlt htype => ?_,
    fun type hlt htype => ?_, ?_⟩
  · rw [Ne, hknown, hnext]
    exact h.locals id (hpeer id ▸ hlocal)
  · rw [hopened, hpeer, Ne, hknown]
    exact h.opened id
  · obtain ⟨n, hle, hsegment, heq⟩ := h.peers type hlt (hpeer type ▸ htype)
    refine ⟨n, Nat.le_trans hle (hlimits _), fun i => ?_, (hopenings type).trans heq⟩
    rw [Ne, hknown]
    exact hsegment i
  · rw [hopenings]
    exact h.silent type hlt (hpeer type ▸ htype)
  · rw [hheralded]
    obtain hsame | ⟨e, hcons, hother, habout⟩ := hreports
    · rw [hsame]
      exact h.heralded
    · rw [hcons]
      exact ⟨fun id hid _ hpeer => h.reported hpeer (habout id hid hpeer), h.heralded⟩

theorem Table.openLocal (h : Table b) (bidirectional : Bool)
    (hnumbered : (b.openLocal bidirectional).Numbered)
    (hrecords : Records (b.openLocal bidirectional)) : Table (b.openLocal bidirectional) := by
  obtain ⟨hnewLocal, hnewBidi⟩ := nextStreamId_type h.numbered bidirectional
  obtain ⟨s, hslot⟩ := @slot_openLocal b bidirectional
  obtain ⟨_, _, _, _, _, hframe⟩ := b.openLocal_frame bidirectional
  have hrole : (b.openLocal bidirectional).role = b.role := by rw [hframe]
  have hpeer := fun id => isPeerInitiated_of_role hrole id
  have hnotified : (b.openLocal bidirectional).notified = b.notified := by rw [hframe]
  have hids : (b.openLocal bidirectional).openedIds
      = b.nextStreamId bidirectional :: b.openedIds := by
    cases bidirectional <;> rfl
  have hlimit : ∀ other, (b.openLocal bidirectional).flowControl.maxStreamsLocal other
      = b.flowControl.maxStreamsLocal other := by
    intro other
    cases bidirectional <;> rfl
  have hnext : ∀ other, (b.openLocal bidirectional).nextStreamId other =
      if other = bidirectional then b.nextStreamId bidirectional + 4 else b.nextStreamId other := by
    intro other
    cases bidirectional <;> cases other <;> rfl
  have hknown : ∀ id, (b.openLocal bidirectional).slot id ≠ .unknown ↔
      id = b.nextStreamId bidirectional ∨ b.slot id ≠ .unknown := by
    intro id
    rw [hslot]
    by_cases hid : id = b.nextStreamId bidirectional
    · rw [if_pos hid]
      exact ⟨fun _ => .inl hid, fun _ => Slot.live_ne_unknown⟩
    · rw [if_neg hid]
      exact ⟨.inr, fun h => h.resolve_left hid⟩
  have hheralded : Heralded (b.openLocal bidirectional) = Heralded b := by
    funext e earlier
    simp only [Heralded, hpeer]
  refine ⟨hnumbered, hrecords, fun id hlocal => ?_, fun id => ?_, fun type hlt htype => ?_,
    fun type hlt htype => ?_, ?_⟩
  · rw [hpeer] at hlocal
    rw [hknown, hnext, h.locals id hlocal]
    by_cases hother : StreamId.isBidirectional id = bidirectional
    · -- two identifiers of our own of one direction are of one type
      rw [if_pos hother, hother]
      have hmod : id % 4 = b.nextStreamId bidirectional % 4 := by
        rw [isPeerInitiated_eq, decide_eq_false_iff_not] at hlocal hnewLocal
        rw [← hnewBidi, isBidirectional_eq, isBidirectional_eq, decide_eq_decide] at hother
        have hbit : peerBit b.role < 2 := by cases b.role <;> decide
        omega
      omega
    · rw [if_neg hother]
      refine ⟨fun h => h.resolve_left ?_, .inr⟩
      rintro rfl
      exact hother hnewBidi
  · rw [hids, List.mem_cons, hpeer, hknown, h.opened id]
    constructor
    · rintro (rfl | ⟨hlocal, hid⟩)
      · exact ⟨hnewLocal, .inl rfl⟩
      · exact ⟨hlocal, .inr hid⟩
    · rintro ⟨hlocal, hid | hid⟩
      · exact .inl hid
      · exact .inr ⟨hlocal, hid⟩
  · rw [hpeer] at htype
    obtain ⟨n, hle, hsegment, heq⟩ := h.peers type hlt htype
    refine ⟨n, (hlimit _).symm ▸ hle, fun i => ?_, hnotified.symm ▸ heq⟩
    rw [hknown, ← hsegment i]
    refine ⟨fun h => h.resolve_left fun hid => ?_, .inr⟩
    have hmod : (4 * i + type) % 4 = type % 4 := by omega
    have hlocal := (isPeerInitiated_congr (b := b) hmod).trans htype
    rw [hid, hnewLocal] at hlocal
    cases hlocal
  · rw [hpeer] at htype
    rw [hnotified]
    exact h.silent type hlt htype
  · rw [hheralded, hnotified]
    exact h.heralded

theorem Table.creates (h : Table b) (hpeer : b.isPeerInitiated id = true)
    (haccept : b.flowControl.canAcceptStream id = true) (hunknown : b.slot id = .unknown)
    (hlower : ∀ lower < id, lower % 4 = id % 4 → b.slot lower ≠ .unknown) {s : WtStream}
    (hnumbered : ((b.putStream id s).logEvent
      (.streamOpened id (StreamId.isBidirectional id))).Numbered)
    (hrecords : Records ((b.putStream id s).logEvent
      (.streamOpened id (StreamId.isBidirectional id)))) :
    Table ((b.putStream id s).logEvent (.streamOpened id (StreamId.isBidirectional id))) := by
  have hknown : ∀ id', ((b.putStream id s).logEvent
      (.streamOpened id (StreamId.isBidirectional id))).slot id' ≠ .unknown ↔
        id' = id ∨ b.slot id' ≠ .unknown := by
    intro id'
    rw [Book.slot_logEvent, Book.slot_putStream]
    by_cases hid : id' = id
    · rw [if_pos hid]
      exact ⟨fun _ => .inl hid, fun _ => Slot.live_ne_unknown⟩
    · rw [if_neg hid]
      exact ⟨.inr, fun h => h.resolve_left hid⟩
  have hmodlt : id % 4 < 4 := Nat.mod_lt _ (by decide)
  refine ⟨hnumbered, hrecords, fun id' hlocal => ?_, fun id' => ?_, fun type hlt htype => ?_,
    fun type hlt htype => ?_, ⟨fun id' hid hother _ => ?_, h.heralded⟩⟩
  · have hlocal' : b.isPeerInitiated id' = false := hlocal
    rw [hknown]
    refine Iff.trans ⟨fun h => h.resolve_left ?_, .inr⟩ (h.locals id' hlocal')
    rintro rfl
    exact absurd (hlocal'.symm.trans hpeer) Bool.false_ne_true
  · rw [hknown]
    refine (h.opened id').trans (and_congr_right fun hlocal => ⟨.inr, fun h => h.resolve_left ?_⟩)
    rintro rfl
    exact absurd (hlocal.symm.trans hpeer) Bool.false_ne_true
  · have htype' : b.isPeerInitiated type = true := htype
    obtain ⟨n, hle, hsegment, heq⟩ := h.peers type hlt htype'
    by_cases hsame : id % 4 = type
    · -- the one that is missing is the next one
      subst hsame
      have hid : 4 * (id / 4) + id % 4 = id := by omega
      have hn : id / 4 = n := by
        have hout : ¬ id / 4 < n := by
          rw [← hsegment, hid]
          exact fun h => h hunknown
        by_contra hne
        have hlow := hlower (4 * n + id % 4) (by omega) (by omega)
        exact Nat.lt_irrefl n ((hsegment n).1 hlow)
      refine ⟨n + 1, ?_, fun i => ?_, ?_⟩
      · have hindex := accepted_index haccept
        rw [hn] at hindex
        rw [isBidirectional_congr (Nat.mod_mod id 4)]
        exact hindex
      · rw [hknown, hsegment]
        omega
      · have hcons : openings (id % 4) (.streamOpened id (StreamId.isBidirectional id) :: b.notified)
            = id :: openings (id % 4) b.notified := by
          simp [openings]
        refine hcons.trans ?_
        rw [heq, firstIds, firstIds, List.range_succ, List.map_append, List.reverse_append]
        simp [← hn, hid]
    · refine ⟨n, hle, fun i => ?_, ?_⟩
      · rw [hknown, ← hsegment i]
        refine ⟨fun h => h.resolve_left fun hid => ?_, .inr⟩
        omega
      · refine Eq.trans ?_ heq
        simp [openings, Book.logEvent, Book.putStream, hsame]
  · have htype' : b.isPeerInitiated type = false := htype
    have hne : id % 4 ≠ type := by
      rintro rfl
      rw [isPeerInitiated_congr (Nat.mod_mod ..), hpeer] at htype'
      cases htype'
    refine Eq.trans ?_ (h.silent type hlt htype')
    simp [openings, Book.logEvent, Book.putStream, hne]
  · obtain rfl := Option.some.inj hid
    exact absurd rfl (hother _)

theorem Drift.table (h : Drift b b') (htable : Table b)
    (hcount : b'.removedIds.length ≤ streamIdRecordMaxSize) : Table b' := by
  have hnumbered := h.numbered htable.numbered
  have hrecords := h.records htable.records htable.next_unknown hcount
  obtain ⟨hknown, hopened, hnext, hreports⟩ | ⟨bidirectional, rfl⟩ |
    ⟨id, hpeer, haccept, hunknown, hlower, rfl⟩ := h.growth htable.records hcount
  · obtain ⟨_, _, hflows⟩ := h.flow
    exact htable.of_none h.sameSession.role hnumbered hrecords hflows.step.maxStreamsLocal_le hknown
      hopened hnext hreports
  · exact htable.openLocal bidirectional hnumbered hrecords
  · exact htable.creates hpeer haccept hunknown hlower hnumbered hrecords

theorem table_new (role : Role) (config peerConfig : WtConfig) :
    Table (Book.new role config peerConfig) := by
  have hslot : ∀ id, (Book.new role config peerConfig).slot id = .unknown := fun _ => rfl
  have hnumbered : (Book.new role config peerConfig).Numbered := by
    intro bidirectional
    cases bidirectional <;> rfl
  refine ⟨hnumbered, ⟨rfl, le_rfl, fun id s h => ?_, fun id s h => ?_⟩, fun id hlocal => ?_,
    fun id => ?_, fun type hlt htype => ?_, fun _ _ _ => rfl, trivial⟩
  · simp [Book.stream?, Book.new] at h
  · simp [Book.stream?, Book.new] at h
  · -- no identifier of our own is below the first one of its type
    refine ⟨fun h => absurd (hslot _) h, fun hlt => ?_⟩
    rw [isPeerInitiated_eq, decide_eq_false_iff_not] at hlocal
    rw [hnumbered, isBidirectional_eq] at hlt
    have hzero : (Book.new role config peerConfig).flowControl.openedStreams
        (decide (id % 4 < 2)) = 0 := by
      cases decide (id % 4 < 2) <;> rfl
    rw [hzero] at hlt
    have hrole : (Book.new role config peerConfig).role = role := rfl
    rw [hrole] at hlocal hlt
    by_cases hbidi : id % 4 < 2
    · rw [decide_eq_true hbidi] at hlt
      cases role with
      | client => exact absurd hlt (Nat.not_lt_zero _)
      | server =>
        have hfirst : StreamId.first (Role.server == .client) true = 1 := by decide
        simp only [peerBit] at hlocal
        omega
    · rw [decide_eq_false hbidi] at hlt
      cases role with
      | client =>
        have hfirst : StreamId.first (Role.client == .client) false = 2 := by decide
        simp only [peerBit] at hlocal
        omega
      | server =>
        have hfirst : StreamId.first (Role.server == .client) false = 3 := by decide
        simp only [peerBit] at hlocal
        omega
  · exact ⟨fun h => absurd h List.not_mem_nil, fun h => absurd (hslot _) h.2⟩
  · refine ⟨0, Nat.zero_le _, fun i => ?_, rfl⟩
    exact ⟨fun h => absurd (hslot _) h, fun h => absurd h (Nat.not_lt_zero _)⟩

/-- The table of a session that removed no more streams than it can remember. -/
theorem WtReach.table {role : Role} {config peerConfig : WtConfig} {s : WtSession}
    (reach : WtReach role config peerConfig s)
    (hcount : s.removedIds.length ≤ streamIdRecordMaxSize) : Table s.toBook := by
  have hkeeps := @WtReach.keeps s role config peerConfig
    (fun b => b.removedIds.length ≤ streamIdRecordMaxSize → Table b) reach
    (fun _ => table_new role config peerConfig) fun b b' _ _ htable hstep hcount =>
      hstep.table (htable (Nat.le_trans hstep.removedIds hcount)) hcount
  exact hkeeps hcount

end Table

/-- The identifier is a key of the table or of the record of closed streams. -/
def Book.Known (b : Book) (id : Nat) : Prop :=
  (b.stream? id).isSome = true ∨ b.isClosedId id = true

theorem known_iff {b : Book} {id : Nat} : b.Known id ↔ b.slot id ≠ .unknown := by
  rw [Ne, Book.slot_eq_unknown, Book.Known, Book.isClosedId, BoundedMap.contains]
  cases b.stream? id <;> cases b.closedStreamSendMax.get id <;> simp

/-- What a session knows of its streams, after any run that removed no more of them than it can
remember. Of the peer's streams of one type it knows the first so many, and reported them in order;
what is left in the queue is the end of what was reported. -/
theorem stream_table {role : Role} {config peerConfig : WtConfig} {s : WtSession}
    (run : WtRun role config peerConfig s)
    (hcount : s.removedIds.length ≤ streamIdRecordMaxSize) :
    (∀ id, ¬ ((s.stream? id).isSome = true ∧ s.isClosedId id = true)) ∧
      (∀ id, id ∈ s.openedIds ↔ s.isPeerInitiated id = false ∧ s.Known id) ∧
      (∀ id, s.isPeerInitiated id = false →
        (s.Known id ↔ id < s.nextStreamId (StreamId.isBidirectional id))) ∧
      (∀ type < 4, s.isPeerInitiated type = true →
        ∃ n, n ≤ s.flowControl.maxStreamsLocal (StreamId.isBidirectional type) ∧
          (∀ i, s.Known (4 * i + type) ↔ i < n) ∧
          openings type s.notified = (firstIds type n).reverse) ∧
      (∀ type < 4, s.isPeerInitiated type = false → openings type s.notified = []) ∧
      Always (Heralded s.toBook) s.notified ∧
      (∃ polled, s.notified.reverse = polled ++ s.events) ∧
      ∀ id stream, s.stream? id = some stream → stream.isClosed = false := by
  have htable := (WtReach.run run).table hcount
  refine ⟨fun id h => ?_, fun id => ?_, fun id hlocal => ?_, fun type hlt htype => ?_,
    htable.silent, htable.heralded, run.queued.events, htable.records.live⟩
  · obtain ⟨stream, hlive⟩ := Option.isSome_iff_exists.1 h.1
    have hnone := htable.records.apart id stream hlive
    rw [Book.isClosedId, BoundedMap.contains, hnone] at h
    cases h.2
  · rw [known_iff]
    exact htable.opened id
  · rw [known_iff]
    exact htable.locals id hlocal
  · obtain ⟨n, hle, hsegment, heq⟩ := htable.peers type hlt htype
    refine ⟨n, hle, fun i => ?_, heq⟩
    rw [known_iff]
    exact hsegment i

/-- A client that opened a stream, and whose peer began with its second one, which opens the first,
and reset it. -/
def heldClient : WtSession :=
  runCalls (WtSession.client .default .default)
    [.initiate, .openBidiStream, .feed (Capsule.wtStream 7 [] false).encode, .process, .pollEvent,
      .feed (Capsule.wtResetStream 7 0 0).encode, .process]

theorem stream_table_held :
    heldClient.openedIds = [0] ∧ heldClient.removedIds = [7] ∧ heldClient.isClosedId 7 = true ∧
      (heldClient.stream? 3).isSome = true ∧
      (∀ id, ¬ ((heldClient.stream? id).isSome = true ∧ heldClient.isClosedId id = true)) ∧
      (∀ id, id ∈ heldClient.openedIds ↔
        heldClient.isPeerInitiated id = false ∧ heldClient.Known id) ∧
      (∃ n, (∀ i, heldClient.Known (4 * i + 3) ↔ i < n) ∧
        openings 3 heldClient.notified = (firstIds 3 n).reverse) ∧
      Always (Heralded heldClient.toBook) heldClient.notified ∧
      ∃ polled, heldClient.notified.reverse = polled ++ heldClient.events := by
  have hrun : WtRun .client .default .default heldClient := WtRun.init.runCalls _
  obtain ⟨hapart, hopened, _, hpeers, _, hheralded, hqueued, _⟩ :=
    stream_table hrun (by decide +kernel)
  obtain ⟨n, _, hknown, hreported⟩ := hpeers 3 (by decide) (by decide +kernel)
  exact ⟨by decide +kernel, by decide +kernel, by decide +kernel, by decide +kernel, hapart, hopened,
    ⟨n, hknown, hreported⟩, hheralded, hqueued⟩

end Http2.WebTransport
