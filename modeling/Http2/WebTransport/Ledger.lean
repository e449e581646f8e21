import Http2.WebTransport.Slots

/-! What a session sent on its streams, and what was asked of it: the rules of WT_RESET_STREAM,
WT_STOP_SENDING and WT_MAX_STREAM_DATA over a whole run. -/
namespace Http2.WebTransport

open Lib Lib.Prog WtSession

/-! ## Histories of capsules, the most recent first -/

/-- The octets that a capsule carries. -/
def Capsule.dataLength : Capsule → Nat
  | .wtStream _ data _ => data.length
  | _ => 0

/-- The octets that a capsule carries on a stream. -/
def Capsule.bytesOn (id : Nat) (c : Capsule) : Nat :=
  if c.streamId? = some id then c.dataLength else 0

/-- WT_STREAM with FIN, or WT_RESET_STREAM, on a stream. -/
def Capsule.endsOn (id : Nat) : Capsule → Bool
  | .wtStream streamId _ fin => streamId == id && fin
  | .wtResetStream streamId _ _ => streamId == id
  | _ => false

/-- WT_STOP_SENDING on a stream. -/
def Capsule.stopsOn (id : Nat) : Capsule → Bool
  | .wtStopSending streamId _ => streamId == id
  | _ => false

def totalBytes (cs : List Capsule) : Nat := (cs.map Capsule.dataLength).sum

def bytesOn (id : Nat) (cs : List Capsule) : Nat := (cs.map (Capsule.bytesOn id)).sum

def ended (id : Nat) (cs : List Capsule) : Bool := cs.any (Capsule.endsOn id)

def stopped (id : Nat) (cs : List Capsule) : Bool := cs.any (Capsule.stopsOn id)

section Histories

variable {id : Nat} {c : Capsule} {cs : List Capsule}

@[simp] theorem bytesOn_cons : bytesOn id (c :: cs) = c.bytesOn id + bytesOn id cs := rfl

@[simp] theorem totalBytes_cons : totalBytes (c :: cs) = c.dataLength + totalBytes cs := rfl

@[simp] theorem ended_cons : ended id (c :: cs) = (c.endsOn id || ended id cs) := rfl

@[simp] theorem stopped_cons : stopped id (c :: cs) = (c.stopsOn id || stopped id cs) := rfl

theorem totalBytes_append (new cs : List Capsule) :
    totalBytes (new ++ cs) = totalBytes new + totalBytes cs := by
  simp [totalBytes]

/-- What goes over one stream is a part of what goes over all of them. -/
theorem bytesOn_le_totalBytes (id : Nat) (cs : List Capsule) : bytesOn id cs ≤ totalBytes cs := by
  induction cs with
  | nil => exact le_rfl
  | cons c cs ih =>
    rw [bytesOn_cons, totalBytes_cons]
    refine Nat.add_le_add ?_ ih
    unfold Capsule.bytesOn
    split
    · exact le_rfl
    · exact Nat.zero_le _

/-- A capsule about another stream, or about none. -/
theorem about_other (h : c.streamId? ≠ some id) :
    c.bytesOn id = 0 ∧ c.endsOn id = false ∧ c.stopsOn id = false := by
  refine ⟨if_neg h, ?_, ?_⟩
  · cases c <;> simp_all [Capsule.endsOn, Capsule.streamId?]
  · cases c <;> simp_all [Capsule.stopsOn, Capsule.streamId?]

theorem histories_other {new : List Capsule} (h : ∀ c ∈ new, c.streamId? ≠ some id) :
    bytesOn id (new ++ cs) = bytesOn id cs ∧ ended id (new ++ cs) = ended id cs ∧
      stopped id (new ++ cs) = stopped id cs := by
  induction new with
  | nil => exact ⟨rfl, rfl, rfl⟩
  | cons c new ih =>
    obtain ⟨hbytes, hended, hstopped⟩ := ih fun c' hc' => h c' (List.mem_cons_of_mem _ hc')
    obtain ⟨hb, he, hs⟩ := about_other (h c (List.mem_cons_self ..))
    simp only [List.cons_append, bytesOn_cons, ended_cons, stopped_cons, hb, he, hs, hbytes,
      hended, hstopped, Nat.zero_add, Bool.false_or, and_self]

end Histories

/-! ## The rules of what goes out -/

/-- What a capsule says about a stream is in order after the capsules that went out before: nothing
goes over a stream after its end, WT_RESET_STREAM names all that went over it, and after
WT_STOP_SENDING there is neither another one nor WT_MAX_STREAM_DATA. -/
def Lawful (c : Capsule) (earlier : List Capsule) : Prop :=
  match c with
  | .wtStream id _ _ => ended id earlier = false
  | .wtResetStream id _ size => ended id earlier = false ∧ size = bytesOn id earlier
  | .wtStopSending id _ | .wtMaxStreamData id _ => stopped id earlier = false
  | _ => True

/-- What the record of a stream says of the capsules that went out for it. -/
def Account (sent : List Capsule) (id : Nat) : Slot → Prop
  | .unknown => bytesOn id sent = 0 ∧ ended id sent = false ∧ stopped id sent = false
  | .live s => s.sendOffset = bytesOn id sent ∧ s.canSend = !ended id sent ∧
      s.stopSendingSent = stopped id sent
  | .closed _ => True

/-- What the flow control says of the capsules that went out. -/
structure Spent (fc : WtFlowControl) (sent : List Capsule) : Prop where
  total : fc.sendOffset = totalBytes sent
  limit : fc.sendMax ≤ u64Max

/-- The books are in order. -/
structure Ledger (b : Book) : Prop where
  accounts : ∀ id, Account b.sent id (b.slot id)
  lawful : Always Lawful b.sent

section Ledger

variable {b b' : Book} {id : Nat} {old new : Slot} {sent received : List Capsule}

theorem totalBytes_unmetered (h : ∀ c ∈ sent, c.Unmetered) : totalBytes sent = 0 := by
  induction sent with
  | nil => rfl
  | cons c cs ih =>
    have hzero : c.dataLength = 0 := by
      have hc := h c (List.mem_cons_self ..)
      cases c <;> first | rfl | exact hc.elim
    rw [totalBytes_cons, hzero, ih fun c' hc' => h c' (List.mem_cons_of_mem _ hc')]

theorem FlowStep.spent {fc fc' : WtFlowControl} {history : List Capsule}
    (h : FlowStep fc fc' sent received) (hkept : Kept fc) (hspent : Spent fc history) :
    Spent fc' (sent ++ history) := by
  obtain ⟨htotal, hlimit⟩ := hspent
  cases h with
  | stays _ _ hnew =>
    refine ⟨?_, hlimit⟩
    rw [totalBytes_append, totalBytes_unmetered hnew, Nat.zero_add]
    exact htotal
  | opens bidirectional => cases bidirectional <;> exact ⟨htotal, hlimit⟩
  | sends _ id data fin hroom h =>
    obtain ⟨hle, rfl⟩ := consumeSend_ok h
    refine ⟨?_, hlimit⟩
    have hsend := hkept.send
    simp only [WtFlowControl.sendAvailable] at hroom
    simp only [saturatingAdd] at hle ⊢
    simp only [List.cons_append, List.nil_append, totalBytes_cons, Capsule.dataLength]
    omega
  | takes _ id data fin h =>
    obtain ⟨-, rfl⟩ := consumeRecv_ok h
    exact ⟨htotal, hlimit⟩
  | raises maximum => exact ⟨htotal.trans (Nat.zero_add _).symm, hlimit⟩
  | grants maximum hmax => exact ⟨htotal, Nat.le_trans hmax (by decide)⟩
  | raisesStreams maximum bidirectional =>
    have hzero := htotal.trans (Nat.zero_add _).symm
    cases bidirectional <;> exact ⟨hzero, hlimit⟩
  | grantsStreams maximum bidirectional => cases bidirectional <;> exact ⟨htotal, hlimit⟩

theorem SlotMove.about (h : SlotMove b id old new sent received) :
    (∀ c ∈ sent, c.streamId? = some id) ∧ ∀ c ∈ received, c.streamId? = some id := by
  cases h <;> constructor <;> intro c hc <;>
    first
    | exact absurd hc List.not_mem_nil
    | (rw [List.mem_singleton.1 hc]; rfl)

theorem account_settled {s : WtStream} (h : Account sent id (.live s)) :
    Account sent id (.settled s) := by
  unfold Slot.settled
  split
  · trivial
  · exact h

theorem account_new {s : WtStream} (h : Account sent id .unknown) (hoffset : s.sendOffset = 0)
    (hcan : s.canSend = true) (hstop : s.stopSendingSent = false) :
    Account sent id (.live s) := by
  obtain ⟨hbytes, hended, hstopped⟩ := h
  exact ⟨hoffset.trans hbytes.symm, by rw [hcan, hended]; rfl, hstop.trans hstopped.symm⟩

/-- A step on a stream keeps its account. -/
theorem SlotMove.account {history : List Capsule} (h : SlotMove b id old new sent received)
    (haccount : Account history id old) (hfits : bytesOn id (sent ++ history) ≤ u64Max) :
    Account (sent ++ history) id new := by
  cases h with
  | opened bidirectional hid => exact account_new haccount rfl rfl rfl
  | created hpeer => exact account_new haccount rfl rfl rfl
  | sendData s s' data fin hpart h =>
    obtain ⟨hoffset, hcan, hstop⟩ := haccount
    obtain ⟨hcan', -, rfl⟩ := WtStream.sendData_eq_ok h
    rw [hcan', Bool.eq_not_iff] at hcan
    refine account_settled ⟨?_, ?_, ?_⟩
    · simp only [List.cons_append, List.nil_append, bytesOn_cons, Capsule.bytesOn,
        Capsule.streamId?, Capsule.dataLength, if_true] at hfits ⊢
      simp only [saturatingAdd]
      omega
    · cases fin <;> simp_all [WtStream.canSend, SendState.canSend, Capsule.endsOn]
    · refine hstop.trans ?_
      simp [Capsule.stopsOn]
  | sendReset s errorCode =>
    obtain ⟨hoffset, hcan, hstop⟩ := haccount
    refine account_settled ⟨?_, ?_, ?_⟩
    · refine hoffset.trans ?_
      simp [Capsule.bytesOn, Capsule.dataLength]
    · simp [WtStream.canSend, WtStream.sendReset, SendState.canSend, Capsule.endsOn]
    · refine hstop.trans ?_
      simp [Capsule.stopsOn]
  | sendStop s errorCode =>
    obtain ⟨hoffset, hcan, hstop⟩ := haccount
    refine ⟨?_, ?_, ?_⟩
    · refine hoffset.trans ?_
      simp [Capsule.bytesOn, Capsule.dataLength]
    · refine hcan.trans ?_
      simp [Capsule.endsOn]
    · simp [WtStream.setStopSendingSent, Capsule.stopsOn]
  | sendMaximum s maximum =>
    obtain ⟨hoffset, hcan, hstop⟩ := haccount
    refine ⟨?_, ?_, ?_⟩
    · refine hoffset.trans ?_
      simp [Capsule.bytesOn, Capsule.dataLength]
    · refine hcan.trans ?_
      simp [Capsule.endsOn]
    · refine hstop.trans ?_
      simp [Capsule.stopsOn]
  | takeData s s' data fin h =>
    obtain ⟨-, -, rfl⟩ := WtStream.recvData_eq_ok h
    unfold noteData
    split <;> exact haccount
  | takeReset s errorCode => exact account_settled haccount
  | read s =>
    refine account_settled ?_
    unfold WtStream.markDataRead
    split <;> exact haccount
  | takeStop | takeMaximum => exact haccount
  | raiseClosed => trivial

theorem SlotMove.lawful {history : List Capsule} (h : SlotMove b id old new sent received)
    (haccount : Account history id old) (hlawful : Always Lawful history) :
    Always Lawful (sent ++ history) := by
  cases h with
  | sendData s s' data fin hpart h =>
    obtain ⟨-, hcan, -⟩ := haccount
    obtain ⟨hcan', -, -⟩ := WtStream.sendData_eq_ok h
    rw [hcan', Bool.eq_not_iff] at hcan
    exact ⟨eq_false_of_ne_true (Ne.symm hcan), hlawful⟩
  | sendReset s errorCode hcode hcan' =>
    obtain ⟨hoffset, hcan, -⟩ := haccount
    rw [hcan', Bool.eq_not_iff] at hcan
    exact ⟨⟨eq_false_of_ne_true (Ne.symm hcan), hoffset⟩, hlawful⟩
  | sendStop s errorCode hcode hpart hfirst =>
    obtain ⟨-, -, hstop⟩ := haccount
    exact ⟨hstop.symm.trans hfirst, hlawful⟩
  | sendMaximum s maximum hmax hpart hstop' =>
    obtain ⟨-, -, hstop⟩ := haccount
    exact ⟨hstop.symm.trans hstop', hlawful⟩
  | opened | created | takeData | takeReset | takeStop | takeMaximum | raiseClosed
  | read => exact hlawful

/-- Capsules about no stream do not touch the accounts. -/
theorem account_other {history : List Capsule} {slot : Slot}
    (hother : ∀ c ∈ sent, c.streamId? ≠ some id) (h : Account history id slot) :
    Account (sent ++ history) id slot := by
  obtain ⟨hbytes, hended, hstopped⟩ := @histories_other id history sent hother
  cases slot with
  | unknown =>
    unfold Account
    rw [hbytes, hended, hstopped]
    exact h
  | live s =>
    unfold Account
    rw [hbytes, hended, hstopped]
    exact h
  | closed => trivial

theorem lawful_idle {history : List Capsule} (h : ∀ c ∈ sent, c.streamId? = none)
    (hlawful : Always Lawful history) : Always Lawful (sent ++ history) := by
  refine hlawful.append fun c hc between => ?_
  have hnone := h c hc
  cases c with
  | wtStream | wtResetStream | wtStopSending | wtMaxStreamData => cases hnone
  | datagram | padding | wtMaxData | wtMaxStreams | wtDataBlocked | wtStreamDataBlocked
  | wtStreamsBlocked | wtCloseSession | wtDrainSession | unknown => trivial

theorem Drift.spent (h : Drift b b') (hkept : Kept b.flowControl)
    (hspent : Spent b.flowControl b.sent) : Spent b'.flowControl b'.sent := by
  obtain ⟨sent, received, hflows⟩ := h.flow
  rw [hflows.sent]
  exact hflows.step.spent hkept hspent

theorem Move.ledger (h : Move b b') (htable : Table b)
    (hcount : b'.removedIds.length ≤ streamIdRecordMaxSize)
    (hkept : Kept b'.flowControl) (hspent : Spent b'.flowControl b'.sent) (hledger : Ledger b) :
    Ledger b' := by
  obtain ⟨sent, received, hsent, hreceived, hslots⟩ := h.slots htable hcount
  have hfits : ∀ id, bytesOn id (sent ++ b.sent) ≤ u64Max := by
    intro id
    rw [← hsent]
    calc bytesOn id b'.sent ≤ totalBytes b'.sent := bytesOn_le_totalBytes id b'.sent
      _ = b'.flowControl.sendOffset := hspent.total.symm
      _ ≤ b'.flowControl.sendMax := hkept.send
      _ ≤ u64Max := hspent.limit
  obtain ⟨haccounts, hlawful⟩ := hledger
  refine ⟨fun id => ?_, ?_⟩
  · rw [hsent]
    cases hslots with
    | idle hslots habout =>
      rw [hslots]
      refine account_other (fun c hc hid => ?_) (haccounts id)
      cases (habout c hc).symm.trans hid
    | touches touched old new hold hslots hmove =>
      rw [hslots]
      by_cases hid : id = touched
      · subst hid
        rw [if_pos rfl]
        exact hmove.account (hold ▸ haccounts id) (hfits id)
      · rw [if_neg hid]
        refine account_other (fun c hc hid' => ?_) (haccounts id)
        exact hid (Option.some.inj (hid'.symm.trans (hmove.about.1 c hc)))
  · rw [hsent]
    cases hslots with
    | idle hslots habout => exact lawful_idle habout hlawful
    | touches touched old new hold hslots hmove =>
      exact hmove.lawful (hold ▸ haccounts touched) hlawful

/-- Data that a stream took and the session did not is nobody's account. -/
theorem Stray.ledger (h : Stray b b') (hledger : Ledger b) : Ledger b' := by
  cases h with
  | halfData id data fin s s' hlive hpart hrecv =>
    obtain ⟨-, -, rfl⟩ := WtStream.recvData_eq_ok hrecv
    refine ⟨fun id' => ?_, hledger.lawful⟩
    have haccount := hledger.accounts id
    rw [Book.slot_eq_live.2 hlive] at haccount
    rw [Book.slot_putStream]
    by_cases hid : id' = id
    · subst hid
      rw [if_pos rfl]
      unfold noteData
      split <;> exact haccount
    · rw [if_neg hid]
      exact hledger.accounts id'

theorem Drift.ledger (h : Drift b b') (htable : Table b)
    (hcount : b'.removedIds.length ≤ streamIdRecordMaxSize)
    (hkept : Kept b'.flowControl) (hspent : Spent b'.flowControl b'.sent) (hledger : Ledger b) :
    Ledger b' := by
  obtain h | h := h
  · exact h.ledger htable hcount hkept hspent hledger
  · exact h.ledger hledger

theorem spent_new (role : Role) (config peerConfig : WtConfig) :
    Spent (Book.new role config peerConfig).flowControl [] :=
  ⟨rfl, Nat.le_of_lt_succ peerConfig.initialMaxData.toNat_lt⟩

/-- The books that drift from a new one, as long as the record of closed streams has room. -/
theorem drifts_ledger {role : Role} {config peerConfig : WtConfig}
    (h : Relation.ReflTransGen Drift (Book.new role config peerConfig) b) :
    Spent b.flowControl b.sent ∧
      (b.removedIds.length ≤ streamIdRecordMaxSize → Table b ∧ Ledger b) := by
  have hnew : Spent (Book.new role config peerConfig).flowControl [] ∧
      (0 ≤ streamIdRecordMaxSize → Table (Book.new role config peerConfig) ∧
        Ledger (Book.new role config peerConfig)) :=
    ⟨spent_new role config peerConfig, fun _ =>
      ⟨table_new role config peerConfig, fun _ => ⟨rfl, rfl, rfl⟩, trivial⟩⟩
  refine (@drifts_keeps role config peerConfig (fun b => Spent b.flowControl b.sent ∧
    (b.removedIds.length ≤ streamIdRecordMaxSize → Table b ∧ Ledger b)) b h hnew ?_).2
  intro b b' _ hkept hold hstep
  refine ⟨hstep.spent hkept hold.1, fun hcount => ?_⟩
  obtain ⟨htable, hledger⟩ := hold.2 (Nat.le_trans hstep.removedIds hcount)
  exact ⟨hstep.table htable hcount,
    hstep.ledger htable hcount (hstep.kept hkept) (hstep.spent hkept hold.1) hledger⟩

theorem WtReach.ledger {role : Role} {config peerConfig : WtConfig} {s : WtSession}
    (reach : WtReach role config peerConfig s)
    (hcount : s.removedIds.length ≤ streamIdRecordMaxSize) : Ledger s.toBook :=
  ((drifts_ledger reach.drifts).2 hcount).2

end Ledger

/-! ## The record of WT_STOP_SENDING -/

def Capsule.isStop : Capsule → Bool
  | .wtStopSending _ _ => true
  | _ => false

/-- The WT_STOP_SENDING capsules of a history. -/
def stops (cs : List Capsule) : List Capsule := cs.filter Capsule.isStop

/-- The record has all the identifiers that WT_STOP_SENDING came for, as long as it has room. -/
structure StopRecord (b : Book) : Prop where
  size : b.stopSendingReceivedIds.maxSize = streamIdRecordMaxSize
  count : b.stopSendingReceivedIds.inner.length ≤ (stops b.received).length
  found : (stops b.received).length ≤ streamIdRecordMaxSize →
    ∀ id, stopped id b.received = true → b.stopSendingReceivedIds.contains id = true

section Stops

variable {b b' : Book} {id : Nat}

/-- A step takes one WT_STOP_SENDING and records it, or takes none. -/
def StopStep (b b' : Book) : Prop :=
  (∃ id errorCode, b'.received = .wtStopSending id errorCode :: b.received ∧
      b'.stopSendingReceivedIds = b.stopSendingReceivedIds.insert id) ∨
    b'.stopSendingReceivedIds = b.stopSendingReceivedIds ∧
      ∃ received, b'.received = received ++ b.received ∧ ∀ c ∈ received, c.isStop = false

theorem Drift.stopStep (h : Drift b b') : StopStep b b' := by
  have hnone : ∀ {b' : Book}, b'.stopSendingReceivedIds = b.stopSendingReceivedIds →
      b'.received = b.received → StopStep b b' :=
    fun hids hreceived => .inr ⟨hids, [], hreceived, fun _ h => absurd h List.not_mem_nil⟩
  have hone : ∀ {b' : Book} {c : Capsule}, c.isStop = false →
      b'.stopSendingReceivedIds = b.stopSendingReceivedIds → b'.received = c :: b.received →
      StopStep b b' := by
    intro b' c hc hids hreceived
    refine .inr ⟨hids, [c], hreceived, fun c' h => ?_⟩
    rw [List.mem_singleton.1 h]
    exact hc
  obtain h | h := h
  · cases h with
    | takeStop id errorCode =>
      refine .inl ⟨id, errorCode, ?_, ?_⟩
      · exact congrArg (List.cons _) (recordStopSending_received b id)
      · simp only [recordStopSending, Book.logReceived]
        cases b.stream? id <;> rfl
    | openLocal opens => cases opens <;> exact hnone rfl rfl
    | sendData _ id data fin h =>
      obtain ⟨_, _, _, _, -, -, rfl⟩ := SendsData.frame h
      exact hnone rfl rfl
    | sendReset id errorCode s =>
      obtain ⟨_, _, _, h⟩ := Book.settle_frame
        (b.logSent (.wtResetStream id errorCode s.sendOffset)) id s.sendReset
      rw [Resets, h]
      exact hnone rfl rfl
    | takeReset id errorCode s =>
      obtain ⟨_, _, _, h⟩ := Book.settle_frame
        (b.logReceived (.wtResetStream id errorCode s.recvOffset)) id s.recvReset
      rw [h]
      exact @hone _ (.wtResetStream id errorCode s.recvOffset) rfl rfl rfl
    | read id s =>
      obtain ⟨_, _, _, h⟩ := b.settle_frame id s.markDataRead
      rw [h]
      exact hnone rfl rfl
    | takeData id data fin => exact @hone _ (.wtStream id data fin) rfl rfl rfl
    | takeMaxData maximum => exact @hone _ (.wtMaxData maximum) rfl rfl rfl
    | takeMaxStreamData id maximum | takeMaxStreamDataClosed id maximum
    | takeMaxStreamDataLost id maximum => exact @hone _ (.wtMaxStreamData id maximum) rfl rfl rfl
    | takeMaxStreams maximum bidirectional =>
      exact @hone _ (.wtMaxStreams maximum bidirectional) rfl rfl rfl
    | takePassive c hc =>
      refine @hone _ c ?_ rfl rfl
      cases c <;> first | rfl | exact hc.elim
    | sendStop | sendDatagram | sendClose | sendDrain | sendMaxData | sendMaxStreamData
    | sendMaxStreams | create | notify => exact hnone rfl rfl
  · cases h
    exact hnone rfl rfl

theorem StopStep.record (h : StopStep b b') (hrecord : StopRecord b) : StopRecord b' := by
  obtain ⟨hsize, hcount, hfound⟩ := hrecord
  obtain ⟨id, errorCode, hreceived, hids⟩ | ⟨hids, received, hreceived, hnone⟩ := h
  · have hstops : (stops b'.received).length = (stops b.received).length + 1 := by
      rw [hreceived]
      rfl
    refine ⟨?_, ?_, fun hroom id' hstopped => ?_⟩
    · rw [hids]
      exact hsize
    · rw [hids, hstops]
      exact Nat.le_trans (BoundedSet.length_insert_le ..) (Nat.succ_le_succ hcount)
    · rw [hids, BoundedSet.contains_insert (by omega)]
      rw [hreceived, stopped_cons, Bool.or_eq_true] at hstopped
      obtain hnew | hold := hstopped
      · exact .inl (beq_iff_eq.1 hnew).symm
      · exact .inr (hfound (by omega) id' hold)
  · have hstops : stops b'.received = stops b.received := by
      rw [hreceived, stops, stops, List.filter_append, List.filter_eq_nil_iff.2, List.nil_append]
      intro c hc
      rw [hnone c hc]
      exact Bool.false_ne_true
    have hstopped : ∀ id, stopped id b'.received = stopped id b.received := by
      intro id
      have hfalse : received.any (Capsule.stopsOn id) = false := by
        rw [List.any_eq_false]
        intro c hc
        have hc' := hnone c hc
        cases c <;> first | exact Bool.false_ne_true | cases hc'
      rw [hreceived, stopped, List.any_append, hfalse, Bool.false_or]
      rfl
    refine ⟨hids ▸ hsize, ?_, fun hroom id h => ?_⟩
    · rw [hids, hstops]
      exact hcount
    · rw [hstops] at hroom
      rw [hstopped] at h
      rw [hids]
      exact hfound hroom id h

theorem WtReach.stopRecord {role : Role} {config peerConfig : WtConfig} {s : WtSession}
    (reach : WtReach role config peerConfig s) : StopRecord s.toBook := by
  have hnew : StopRecord (Book.new role config peerConfig) :=
    ⟨rfl, le_rfl, fun _ _ h => absurd h Bool.false_ne_true⟩
  exact reach.keeps hnew fun _ _ _ _ hold hstep => hstep.stopStep.record hold

end Stops

/-! ## WT_STOP_SENDING and its answer -/

/-- A decoder can find the capsule. -/
def Capsule.Decoded (c : Capsule) : Prop := ∃ buffer n, parseCapsule buffer = .ok (some (c, n))

/-- The send part is in its Ready or Send state, or the stream is still to be opened. -/
def SenderOpen (b : Book) (id : Nat) : Prop :=
  match b.slot id with
  | .unknown => True
  | .live s => s.canSend = true ∧ s.hasSendPart = true
  | .closed _ => False

section Answer

variable {s : WtSession} {id errorCode : Nat}

theorem stopOutcome_answer (htable : Table s.toBook) (hcode : errorCode ≤ maxApplicationErrorCode)
    (hopen : SenderOpen s.toBook id) {r : WtResult Unit} {s' : WtSession}
    (h : StopOutcome s id errorCode r s') (hok : r = .ok ()) :
    ∃ size, s'.sent = .wtResetStream id errorCode size :: s.sent := by
  cases h with
  | refused e => cases hok
  | taken s₁ s₂ hconcerns hopened hanswer =>
    have hsent : s₁.sent = s.sent := by
      obtain ⟨_, _, _, hframe⟩ := hopened.frame
      rw [hframe]
    -- the stream that is stopped may send
    have hsender : ∃ stream, s₁.stream? id = some stream ∧ stream.canSend = true ∧
        stream.hasSendPart = true := by
      have hnamed := hopened
      obtain ⟨hnot, rfl⟩ | ⟨hwill, hcreates⟩ := hopened
      · have hknown := htable.named (hnamed.named hconcerns)
        unfold SenderOpen at hopen
        cases hslot : s₁.slot id with
        | unknown => exact absurd hslot hknown
        | live stream =>
          rw [hslot] at hopen
          exact ⟨stream, Book.slot_eq_live.1 hslot, hopen⟩
        | closed last =>
          rw [hslot] at hopen
          exact hopen.elim
      · have hunknown := (willCreate_iff.1 hwill).2.2
        exact ⟨_, Book.slot_eq_live.1 (hcreates.slot_inside id ⟨rfl, le_rfl⟩ hunknown), rfl, rfl⟩
    obtain ⟨stream, hlive, hcan, hpart⟩ := hsender
    obtain ⟨hcannot, rfl⟩ | ⟨stream', hlive', -, -, -, rfl⟩ := hanswer
    · refine absurd ⟨hcode, stream.setStopSendingReceived, ?_, hcan, hpart⟩
        (hcannot stream hlive hcan)
      rw [recordStopSending_stream?, hlive]
      rfl
    · refine ⟨stream'.sendOffset, ?_⟩
      have hreset : (Resets (recordStopSending s₁.toBook id) id errorCode
          stream'.setStopSendingReceived).sent = .wtResetStream id errorCode stream'.sendOffset ::
            (recordStopSending s₁.toBook id).sent := Book.settle_sent
      rw [recordStopSending_sent, hsent] at hreset
      exact hreset

theorem decoded_stop (h : (Capsule.wtStopSending id errorCode).Decoded) :
    errorCode ≤ maxApplicationErrorCode := by
  obtain ⟨buffer, n, h⟩ := h
  obtain ⟨-, -, capsuleType, payload, hdecode⟩ := parseCapsule_ok h
  exact (decodePayload_range hdecode).2

/-- A stream that was stopped is stopped for good. -/
theorem stopped_rejects (hopen : s.state ≠ .closed) (hstopped : s.stopSendingReceived id = true) :
    (∀ errorCode, ∃ e, (handleCapsule (.wtStopSending id errorCode) s).1 = .error e) ∧
      ∀ maximum, ∃ e, (handleCapsule (.wtMaxStreamData id maximum) s).1 = .error e := by
  have hnot : ¬ Concerns s.toBook id := fun h => absurd (h.2.2.symm.trans hstopped) Bool.false_ne_true
  have hfails : ∀ {m : Wt Unit} {c : Capsule} {x y z : String}, dispatch c = (do
        requireSender id x y z
        m) → ∃ e, (handleCapsule c s).1 = .error e := by
    intro m c x y z hc
    have h : Ensures (handleCapsule c) s fun r _ => ∃ e, r = .error e := by
      simp only [handleCapsule, ensures_bind, ensures_get, ensures_ite]
      refine ⟨fun hclosed => absurd hclosed hopen, fun _ => ?_⟩
      rw [hc, ensures_bind]
      refine ensures_mono (requireSender_spec s id x y z) fun r s' h => ?_
      obtain ⟨rfl, ⟨-, e, rfl⟩ | ⟨hconcerns, -⟩⟩ := h
      · exact ⟨e, rfl⟩
      · exact absurd hconcerns hnot
    exact h
  exact ⟨fun _ => hfails rfl, fun _ => hfails rfl⟩

end Answer

/-- The rules of resetting and stopping, in every state that a session reaches, those between the
capsules of `process` included, as long as the two records have room. What goes out is lawful; while
the session is not closed, the first WT_STOP_SENDING for a stream that may send is answered by one
WT_RESET_STREAM with its error code, and after it WT_STOP_SENDING and WT_MAX_STREAM_DATA are
rejected. -/
theorem reset_stop_protocol {role : Role} {config peerConfig : WtConfig} {s : WtSession}
    (reach : WtReach role config peerConfig s)
    (hremoved : s.removedIds.length ≤ streamIdRecordMaxSize)
    (hstops : (stops s.received).length ≤ streamIdRecordMaxSize) :
    Always Lawful s.sent ∧
      (s.state ≠ .closed → ∀ id errorCode, (Capsule.wtStopSending id errorCode).Decoded →
        (handleCapsule (.wtStopSending id errorCode) s).1 = .ok () → SenderOpen s.toBook id →
        ∃ size, (handleCapsule (.wtStopSending id errorCode) s).2.sent =
          .wtResetStream id errorCode size :: s.sent) ∧
      (s.state ≠ .closed → ∀ id, stopped id s.received = true →
        (∀ errorCode, ∃ e, (handleCapsule (.wtStopSending id errorCode) s).1 = .error e) ∧
          ∀ maximum, ∃ e, (handleCapsule (.wtMaxStreamData id maximum) s).1 = .error e) := by
  refine ⟨(reach.ledger hremoved).lawful, fun hopen id errorCode hdecoded hok hsender => ?_,
    fun hopen id hstopped => ?_⟩
  · have htable := reach.table hremoved
    have hanswer : Ensures (handleCapsule (.wtStopSending id errorCode)) s fun r s' =>
        r = .ok () → ∃ size, s'.sent = .wtResetStream id errorCode size :: s.sent := by
      simp only [handleCapsule, ensures_bind, ensures_get, ensures_ite]
      refine ⟨fun hclosed => absurd hclosed hopen, fun _ => ?_⟩
      refine ensures_mono (handleStopSending_spec s id errorCode) fun r s' h => ?_
      cases r with
      | error e => exact fun h => by cases h
      | ok u =>
        obtain ⟨size, hsent⟩ := stopOutcome_answer htable (decoded_stop hdecoded) hsender h rfl
        exact fun _ => ⟨size, hsent⟩
    exact hanswer hok
  · refine stopped_rejects hopen ?_
    rw [Book.stopSendingReceived, reach.stopRecord.found hstops id hstopped, Bool.true_or]

theorem reset_stop_protocol_stopped : stoppedClient.state ≠ .closed ∧
    stopped 0 stoppedClient.received = true ∧
    (∀ errorCode, ∃ e, (handleCapsule (.wtStopSending 0 errorCode) stoppedClient).1 = .error e) ∧
      ∀ maximum, ∃ e, (handleCapsule (.wtMaxStreamData 0 maximum) stoppedClient).1 = .error e :=
  ⟨by decide +kernel, by decide +kernel,
    (reset_stop_protocol (.run stoppedClient_run) (by decide +kernel) (by decide +kernel)).2.2
      (by decide +kernel) 0 (by decide +kernel)⟩

/-- A closed session takes a second WT_STOP_SENDING without an error. -/
theorem reset_stop_protocol_false :
    ¬ ∀ (role : Role) (config peerConfig : WtConfig) (s : WtSession),
      WtReach role config peerConfig s → s.removedIds.length ≤ streamIdRecordMaxSize →
        (stops s.received).length ≤ streamIdRecordMaxSize → ∀ id, stopped id s.received = true →
          ∀ errorCode, ∃ e, (handleCapsule (.wtStopSending id errorCode) s).1 = .error e := by
  intro h
  obtain ⟨e, herror⟩ := h .client .default .default (runCalls stoppedClient [.close 0 ""])
    (.run (stoppedClient_run.runCalls _)) (by decide +kernel) (by decide +kernel) 0
    (by decide +kernel) 7
  have hok : (handleCapsule (.wtStopSending 0 7) (runCalls stoppedClient [.close 0 ""])).1
      = .ok () := by decide +kernel
  cases hok.symm.trans herror

end Http2.WebTransport
