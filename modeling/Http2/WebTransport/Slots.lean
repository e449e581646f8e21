import Http2.WebTransport.Table

/-! What a step does to the streams of a session, one stream at a time. -/
namespace Http2.WebTransport

open Lib Lib.Prog WtSession

/-- A stream that is put back: it goes on record when it is closed. -/
def Slot.settled (s : WtStream) : Slot := if s.isClosed then .closed s.sendMax else .live s

/-- The record that `open_stream` makes. -/
def Book.localStream (b : Book) (bidirectional : Bool) : WtStream :=
  WtStream.new (b.nextStreamId bidirectional)
    (if bidirectional then b.peerConfig.initialMaxStreamDataBidiRemote.toNat
      else b.peerConfig.initialMaxStreamDataUni.toNat)
    (if bidirectional then b.config.initialMaxStreamDataBidiLocal.toNat
      else b.config.initialMaxStreamDataUni.toNat) bidirectional true

/-- What becomes of the stream under an identifier, with the capsules that go out and that are
taken. -/
inductive SlotMove (b : Book) (id : Nat) : Slot → Slot → List Capsule → List Capsule → Prop
  | opened (bidirectional : Bool) (hid : id = b.nextStreamId bidirectional) :
    SlotMove b id .unknown (.live (b.localStream bidirectional)) [] []
  | created (hpeer : b.isPeerInitiated id = true) :
    SlotMove b id .unknown (.live (b.peerStream id (StreamId.isBidirectional id))) [] []
  | sendData (s s' : WtStream) (data : Bytes) (fin : Bool) (hpart : s.hasSendPart = true)
    (h : s.sendData data.length fin = .ok s') :
    SlotMove b id (.live s) (.settled s') [.wtStream id data fin] []
  | sendReset (s : WtStream) (errorCode : Nat) (hcode : errorCode ≤ maxApplicationErrorCode)
    (hcan : s.canSend = true) (hpart : s.hasSendPart = true) :
    SlotMove b id (.live s) (.settled s.sendReset) [.wtResetStream id errorCode s.sendOffset] []
  | sendStop (s : WtStream) (errorCode : Nat) (hcode : errorCode ≤ maxApplicationErrorCode)
    (hpart : s.hasRecvPart = true) (hfirst : s.stopSendingSent = false) :
    SlotMove b id (.live s) (.live s.setStopSendingSent) [.wtStopSending id errorCode] []
  | sendMaximum (s : WtStream) (maximum : Nat) (hmax : maximum ≤ Varint.maxValue)
    (hpart : s.hasRecvPart = true) (hstop : s.stopSendingSent = false)
    (hrecv : s.recvState = .recv) (hlt : s.recvMax < maximum) :
    SlotMove b id (.live s) (.live { s with recvMax := maximum }) [.wtMaxStreamData id maximum] []
  | takeData (s s' : WtStream) (data : Bytes) (fin : Bool)
    (h : s.recvData data.length fin = .ok s') :
    SlotMove b id (.live s) (.live (noteData s' data)) [] [.wtStream id data fin]
  | takeReset (s : WtStream) (errorCode : Nat) (hcan : s.canRecv = true) :
    SlotMove b id (.live s) (.settled s.recvReset) [] [.wtResetStream id errorCode s.recvOffset]
  | takeStop (s : WtStream) (errorCode : Nat) (hfirst : b.stopSendingReceived id = false) :
    SlotMove b id (.live s) (.live s.setStopSendingReceived) [] [.wtStopSending id errorCode]
  | takeMaximum (s : WtStream) (maximum : Nat) (hstop : b.stopSendingReceived id = false)
    (hlt : s.sendMax < maximum) :
    SlotMove b id (.live s) (.live { s with sendMax := maximum }) [] [.wtMaxStreamData id maximum]
  | raiseClosed (last maximum : Nat) (hstop : b.stopSendingReceived id = false)
    (hlt : last < maximum) :
    SlotMove b id (.closed last) (.closed maximum) [] [.wtMaxStreamData id maximum]
  | read (s : WtStream) : SlotMove b id (.live s) (.settled s.markDataRead) [] []

/-- Capsules that are taken without a change to a stream. -/
def Idle (b : Book) : Capsule → Prop
  | .wtStream _ _ _ | .wtResetStream _ _ _ | .wtMaxStreamData _ _ => False
  | .wtStopSending id _ => ∃ sendMax, b.slot id = .closed sendMax
  | _ => True

/-- What a step does to the streams. -/
inductive SlotStep (b b' : Book) (sent received : List Capsule) : Prop
  | idle (hslots : ∀ id, b'.slot id = b.slot id) (habout : ∀ c ∈ sent, c.streamId? = none)
    (hgot : ∀ c ∈ received, Idle b c)
  | touches (id : Nat) (old new : Slot) (hold : b.slot id = old)
    (hslots : ∀ id', b'.slot id' = if id' = id then new else b.slot id')
    (hmove : SlotMove b id old new sent received)

section Slots

variable {b b' : Book} {id : Nat}

/-- A stream that a book names is known. -/
theorem Table.named (h : Table b) (hnamed : b.Named id) : b.slot id ≠ .unknown := by
  cases hpeer : b.isPeerInitiated id with
  | true => exact hnamed.2 hpeer
  | false =>
    rw [h.locals id hpeer]
    have hcreated := hnamed.1
    simp only [Book.isUncreatedLocalId, hpeer, Bool.false_eq_true, if_false] at hcreated
    unfold Book.nextStreamId
    by_cases hbidi : StreamId.isBidirectional id = true
    · simp only [hbidi, if_true, decide_eq_false_iff_not, Nat.not_le] at hcreated ⊢
      exact hcreated
    · simp only [hbidi, Bool.false_eq_true, if_false, decide_eq_false_iff_not, Nat.not_le]
        at hcreated ⊢
      exact hcreated

theorem slot_settled {s : WtStream} (hrecords : Records b)
    (hcount : (b.settle id s).removedIds.length ≤ streamIdRecordMaxSize) (id' : Nat) :
    (b.settle id s).slot id' = if id' = id then .settled s else b.slot id' :=
  Book.slot_settle (settle_room hrecords hcount)

theorem slot_recordStop {s : WtStream} (hlive : b.stream? id = some s) (id' : Nat) :
    (recordStopSending b id).slot id' =
      if id' = id then .live s.setStopSendingReceived else b.slot id' := by
  unfold recordStopSending
  rw [hlive]
  exact Book.slot_putStream s.setStopSendingReceived

theorem Move.slots (h : Move b b') (htable : Table b)
    (hcount : b'.removedIds.length ≤ streamIdRecordMaxSize) :
    ∃ sent received, b'.sent = sent ++ b.sent ∧ b'.received = received ++ b.received ∧
      SlotStep b b' sent received := by
  have hlogged : ∀ {b₀ : Book}, b₀.streams = b.streams →
      b₀.closedStreamSendMax = b.closedStreamSendMax → b₀.removedIds = b.removedIds → Records b₀ :=
    htable.records.of_eq
  have hnone : ∀ c ∈ ([] : List Capsule), c.streamId? = none :=
    fun _ h => absurd h List.not_mem_nil
  have hidle : ∀ c ∈ ([] : List Capsule), Idle b c := fun _ h => absurd h List.not_mem_nil
  -- a capsule about no stream that goes out, or that is taken
  have hsends : ∀ {c : Capsule} {b'}, (∀ id, b'.slot id = b.slot id) → c.streamId? = none →
      b'.sent = c :: b.sent → b'.received = b.received →
      ∃ sent received, b'.sent = sent ++ b.sent ∧ b'.received = received ++ b.received ∧
        SlotStep b b' sent received := by
    intro c b' hslots hc hsent hreceived
    refine ⟨[c], [], hsent, hreceived, .idle hslots (fun c' h => ?_) hidle⟩
    rw [List.mem_singleton.1 h]
    exact hc
  have htakes : ∀ {c : Capsule} {b'}, (∀ id, b'.slot id = b.slot id) → Idle b c →
      b'.sent = b.sent → b'.received = c :: b.received →
      ∃ sent received, b'.sent = sent ++ b.sent ∧ b'.received = received ++ b.received ∧
        SlotStep b b' sent received := by
    intro c b' hslots hc hsent hreceived
    refine ⟨[], [c], hsent, hreceived, .idle hslots hnone fun c' h => ?_⟩
    rw [List.mem_singleton.1 h]
    exact hc
  cases h with
  | openLocal opens =>
    refine ⟨[], [], ?_, ?_, .touches (b.nextStreamId opens) .unknown _ (htable.next_unknown opens)
      (fun id' => ?_) (.opened opens rfl)⟩
    · cases opens <;> rfl
    · cases opens <;> rfl
    · cases opens <;> exact Book.slot_putStream _
  | create id hpeer haccept hunknown =>
    exact ⟨[], [], rfl, rfl, .touches id .unknown _ hunknown
      (fun id' => Book.slot_putStream _) (.created hpeer)⟩
  | sendData _ id data fin h =>
    obtain ⟨s, s', fc, hlive, hpart, hsend, -, -, rfl⟩ := h
    refine ⟨[.wtStream id data fin], [], Book.settle_sent, Book.settle_received,
      .touches id _ _ (Book.slot_eq_live.2 hlive)
        (slot_settled (hlogged rfl rfl rfl) hcount) (.sendData s s' data fin hpart hsend)⟩
  | sendReset id errorCode s hcode hlive hcan hpart =>
    exact ⟨[.wtResetStream id errorCode s.sendOffset], [], Book.settle_sent,
      Book.settle_received, .touches id _ _ (Book.slot_eq_live.2 hlive)
        (slot_settled (hlogged rfl rfl rfl) hcount) (.sendReset s errorCode hcode hcan hpart)⟩
  | sendStop id errorCode s hcode hlive hpart hfirst =>
    exact ⟨[.wtStopSending id errorCode], [], rfl, rfl,
      .touches id _ _ (Book.slot_eq_live.2 hlive)
        (fun id' => Book.slot_putStream (b := b.logSent (.wtStopSending id errorCode)) _)
        (.sendStop s errorCode hcode hpart hfirst)⟩
  | sendMaxStreamData id maximum s hmax hlive hpart hstop hrecv hlt =>
    exact ⟨[.wtMaxStreamData id maximum], [], rfl, rfl,
      .touches id _ _ (Book.slot_eq_live.2 hlive) (fun id' => Book.slot_putStream _)
        (.sendMaximum s maximum hmax hpart hstop hrecv hlt)⟩
  | takeData id data fin s s' fc hlive hpart hrecv =>
    exact ⟨[], [.wtStream id data fin], rfl, rfl, .touches id _ _ (Book.slot_eq_live.2 hlive)
      (fun id' => Book.slot_putStream _) (.takeData s s' data fin hrecv)⟩
  | takeReset id errorCode s hlive hcan =>
    exact ⟨[], [.wtResetStream id errorCode s.recvOffset], Book.settle_sent,
      Book.settle_received, .touches id _ _ (Book.slot_eq_live.2 hlive)
        (slot_settled (hlogged rfl rfl rfl) hcount) (.takeReset s errorCode hcan)⟩
  | takeStop id errorCode hnamed hsender hfirst =>
    have hsent : (recordStopSending b id).sent = b.sent := recordStopSending_sent b id
    have hreceived : (recordStopSending b id).received = b.received :=
      recordStopSending_received b id
    cases hslot : b.slot id with
    | unknown => exact absurd hslot (htable.named hnamed)
    | live s =>
      have hlive := Book.slot_eq_live.1 hslot
      exact ⟨[], [.wtStopSending id errorCode], hsent, congrArg (List.cons _) hreceived,
        .touches id _ _ hslot (slot_recordStop hlive) (.takeStop s errorCode hfirst)⟩
    | closed last =>
      have hgone := (Book.slot_eq_closed.1 hslot).1
      refine @htakes (.wtStopSending id errorCode) _ (fun id' => ?_) ⟨last, hslot⟩ hsent
        (congrArg (List.cons _) hreceived)
      rw [Book.slot_logReceived]
      unfold recordStopSending
      rw [hgone]
      rfl
  | takeMaxStreamData id maximum s hlive hsender hstop hmax hlt =>
    exact ⟨[], [.wtMaxStreamData id maximum], rfl, rfl,
      .touches id _ _ (Book.slot_eq_live.2 hlive) (fun id' => Book.slot_putStream _)
        (.takeMaximum s maximum hstop hlt)⟩
  | takeMaxStreamDataClosed id maximum last hslot hsender hstop hlt =>
    exact ⟨[], [.wtMaxStreamData id maximum], rfl, rfl, .touches id _ _ hslot
      (fun id' => slot_raiseClosed htable.records hcount hslot)
      (.raiseClosed last maximum hstop hlt)⟩
  | takeMaxStreamDataLost id maximum hnamed hslot => exact absurd hslot (htable.named hnamed)
  | read id s hlive =>
    exact ⟨[], [], Book.settle_sent, Book.settle_received,
      .touches id _ _ (Book.slot_eq_live.2 hlive) (slot_settled htable.records hcount) (.read s)⟩
  | sendDatagram data => exact @hsends (.datagram data) _ (fun _ => rfl) rfl rfl rfl
  | sendClose errorCode reason =>
    exact @hsends (closeCapsule errorCode reason) _ (fun _ => rfl) rfl rfl rfl
  | sendDrain => exact @hsends .wtDrainSession _ (fun _ => rfl) rfl rfl rfl
  | sendMaxData maximum => exact @hsends (.wtMaxData maximum) _ (fun _ => rfl) rfl rfl rfl
  | sendMaxStreams maximum bidirectional =>
    exact @hsends (.wtMaxStreams maximum bidirectional) _ (fun _ => rfl) rfl rfl rfl
  | takeMaxData maximum => exact @htakes (.wtMaxData maximum) _ (fun _ => rfl) trivial rfl rfl
  | takeMaxStreams maximum bidirectional =>
    exact @htakes (.wtMaxStreams maximum bidirectional) _ (fun _ => rfl) trivial rfl rfl
  | takePassive c hc =>
    refine @htakes c _ (fun _ => rfl) ?_ rfl rfl
    cases c <;> first | exact hc | trivial
  | notify => exact ⟨[], [], rfl, rfl, .idle (fun _ => rfl) hnone hidle⟩

end Slots

end Http2.WebTransport
