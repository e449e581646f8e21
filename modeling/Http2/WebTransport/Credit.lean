import Http2.WebTransport.Driver
import Http2.WebTransport.Ends

/-! The credit for streams that the driver gives to its peer: for each stream of the peer that ended,
one more may be opened. -/
namespace Http2.WebTransport

open Lib Lib.Prog WtSession

/-- The streams of the client of one direction that events end. -/
def endedOn (bidirectional : Bool) (es : List WtEvent) : List Nat :=
  (endings es).filter fun id =>
    StreamId.isClientInitiated id && StreamId.isBidirectional id == bidirectional

theorem endedOn_cons_none {e : WtEvent} (h : e.ended? = none) (bidirectional : Bool)
    (es : List WtEvent) : endedOn bidirectional (e :: es) = endedOn bidirectional es := by
  rw [endedOn, endings_cons_none h]
  rfl

/-- One if the stream is of the client and of the direction. -/
def due (id : Nat) (bidirectional : Bool) : Nat :=
  if StreamId.isClientInitiated id && StreamId.isBidirectional id == bidirectional then 1 else 0

theorem length_endedOn_cons {e : WtEvent} {id : Nat} (h : e.ended? = some id) (bidirectional : Bool)
    (es : List WtEvent) : (endedOn bidirectional (e :: es)).length =
      due id bidirectional + (endedOn bidirectional es).length := by
  rw [endedOn, endings_cons_some h, List.filter_cons, due]
  split
  · rw [List.length_cons, Nat.add_comm]
    rfl
  · rw [Nat.zero_add]
    rfl

namespace DriverState

/-- The streams of the client of one direction whose end was dispatched. -/
def endedStreams (d : DriverState) (bidirectional : Bool) : List Nat :=
  endedOn bidirectional d.dispatched

/-- The accounts of a driver that has yet to count `owed` ends. -/
structure Owing (config peerConfig : WtConfig) (owed : Bool → Nat) (d : DriverState) : Prop where
  run : WtRun .server config peerConfig d.wtSession
  queue : d.wtSession.notified.reverse = d.dispatched.reverse ++ d.wtSession.events
  balance : d.wtSession.removedIds.length ≤ streamIdRecordMaxSize → ∀ bidirectional,
    d.wtSession.flowControl.maxStreamsLocal bidirectional + d.peerClosed bidirectional
        + owed bidirectional =
      config.initialMaxStreams bidirectional + (d.endedStreams bidirectional).length

/-- The accounts of a driver that counted all that ended. -/
abbrev Accounts (config peerConfig : WtConfig) (d : DriverState) : Prop :=
  Owing config peerConfig (fun _ => 0) d

/-- What the accounts are about. -/
def ledger (d : DriverState) : WtSession × List WtEvent × Nat × Nat :=
  (d.wtSession, d.dispatched, d.peerClosedBidiCount, d.peerClosedUniCount)

section Accounts

variable {config peerConfig : WtConfig} {owed : Bool → Nat} {d d' : DriverState} {ε α β : Type}

theorem Owing.congr (h : Owing config peerConfig owed d) (hsame : d'.ledger = d.ledger) :
    Owing config peerConfig owed d' := by
  obtain ⟨hsession, hrest⟩ := Prod.mk.inj hsame
  obtain ⟨hdispatched, hrest⟩ := Prod.mk.inj hrest
  obtain ⟨hbidi, huni⟩ := Prod.mk.inj hrest
  obtain ⟨hrun, hqueue, hbalance⟩ := h
  have hclosed : ∀ bidirectional, d'.peerClosed bidirectional = d.peerClosed bidirectional := by
    intro bidirectional
    cases bidirectional with
    | true => exact hbidi
    | false => exact huni
  constructor
  · rw [hsession]
    exact hrun
  · rw [hsession, hdispatched]
    exact hqueue
  · intro hcount bidirectional
    rw [hsession] at hcount
    rw [hsession, hclosed, endedStreams, hdispatched]
    exact hbalance hcount bidirectional

/-- A part that does nothing to the accounts. -/
theorem maintains_of_keeps {m : Driver ε α} (h : Prog.Keeps ledger m) :
    Maintains (Owing config peerConfig owed) m :=
  h.maintains fun _ _ hsame howing => howing.congr hsame

/-! ## Parts that do nothing to the accounts -/

theorem reply_keeps : Prog.Keeps ledger (reply : Driver ε Bool) := by
  unfold reply
  apply keeps_bind keeps_get
  intro d
  apply keeps_bind fun _ => rfl
  intro _
  exact keeps_pure

theorem request_keeps (r : ConnRequest) : Prog.Keeps ledger (request r) := by
  unfold request
  apply keeps_bind fun _ => rfl
  intro _
  apply keeps_bind reply_keeps
  intro succeeded
  exact keeps_require

theorem deliverPacket_spec (streamId : Nat) (packet : StreamPacket) :
    Ensures (deliverPacket streamId packet : Driver ε Unit) d fun r d' =>
      r = .ok () ∧ d'.ledger = d.ledger := by
  simp only [deliverPacket, ensures_bind, ensures_get, ensures_ite, ensures_pure]
  exact ⟨fun _ => ⟨rfl, rfl⟩, fun _ => ⟨trivial, trivial⟩⟩

theorem abortSessionWithWtError_keeps (e : WtError) :
    Prog.Keeps ledger (abortSessionWithWtError e : Driver DriverError α) := by
  unfold abortSessionWithWtError
  apply keeps_bind keeps_get
  intro d
  split
  · apply keeps_bind
    · exact fun d => request_keeps _ d
    · intro _
      exact keeps_throw
  · exact keeps_throw

theorem sendChunks_keeps (streamId : Nat) (chunks : List Bytes) :
    Prog.Keeps ledger (sendChunks streamId chunks) := by
  induction chunks with
  | nil => exact keeps_pure
  | cons chunk chunks ih =>
    apply keeps_bind (request_keeps _)
    intro _
    exact ih

theorem respondToClose_keeps : Prog.Keeps ledger respondToClose := by
  unfold respondToClose
  apply keeps_bind keeps_get
  intro d
  apply keeps_ite
  · apply keeps_bind (request_keeps _)
    intro _
    apply keeps_bind fun _ => rfl
    intro _
    exact keeps_throw
  · exact keeps_pure

theorem sendWindowUpdates_keeps (size : Nat) (endStream : Bool) :
    Prog.Keeps ledger (sendWindowUpdates size endStream) := by
  unfold sendWindowUpdates
  apply keeps_bind keeps_get
  intro d
  apply keeps_ite
  · apply keeps_bind (request_keeps _)
    intro _
    exact keeps_ite (request_keeps _) keeps_pure
  · exact keeps_pure

/-! ## Calls on the session -/

/-- The session stays as it is, or a call is made that reports nothing and raises no limit. -/
def Tame (m : Wt α) : Prop :=
  ∀ s, (m s).2 = s ∨ ∃ call : WtCall, call ≠ .process ∧ call ≠ .pollEvent ∧
    call.raisesStreams = false ∧ (m s).2 = (call.exec s).2

theorem exec_snd {m : Wt α} {f : α → WtValue} (s : WtSession) :
    ((m >>= fun a => pure (f a)) s).2 = (m s).2 :=
  (ensures_return (P := (· = (m s).2))).2 rfl

theorem Tame.of_call (call : WtCall) {m : Wt α} {f : α → WtValue}
    (hexec : call.exec = m >>= fun a => pure (f a)) (hprocess : call ≠ .process)
    (hpoll : call ≠ .pollEvent) (hraises : call.raisesStreams = false) : Tame m := by
  intro s
  exact .inr ⟨call, hprocess, hpoll, hraises, by rw [hexec, exec_snd]⟩

theorem tame_pure {a : α} : Tame (pure a : Wt α) := fun _ => .inl rfl

theorem tame_get {f : WtSession → Wt α} (h : ∀ s, Tame (f s)) : Tame (get >>= f) := fun s => h s s

theorem tame_ite {p : Prop} [Decidable p] {m m' : Wt α} (h : Tame m) (h' : Tame m') :
    Tame (if p then m else m') := by
  split
  · exact h
  · exact h'

theorem Owing.onQuiet (h : Owing config peerConfig owed d) {call : WtCall} (hprocess : call ≠ .process)
    (hpoll : call ≠ .pollEvent) (hraises : call.raisesStreams = false) :
    Owing config peerConfig owed { d with wtSession := (call.exec d.wtSession).2 } := by
  obtain ⟨hrun, hqueue, hbalance⟩ := h
  have hquiet := exec_quiet hrun.kept.send hprocess hpoll hraises
  refine ⟨hrun.call call, ?_, fun hcount bidirectional => ?_⟩
  · change (call.exec d.wtSession).2.notified.reverse = _ ++ (call.exec d.wtSession).2.events
    rw [hquiet.notified, hquiet.events]
    exact hqueue
  · have hsame := hrun.announced.maxStreamsLocal (hrun.call call).announced hquiet.announced
      bidirectional
    change (call.exec d.wtSession).2.flowControl.maxStreamsLocal bidirectional + _ + _ = _
    rw [hsame]
    exact hbalance (Nat.le_trans (hrun.removedIds call) hcount) bidirectional

theorem maintains_onSession {m : Wt α} (h : Tame m) :
    Maintains (Owing config peerConfig owed) (onSession m) := by
  intro d howing
  change Owing config peerConfig owed { d with wtSession := (m d.wtSession).2 }
  obtain hsame | ⟨call, hprocess, hpoll, hraises, hcall⟩ := h d.wtSession
  · rw [hsame]
    exact howing
  · rw [hcall]
    exact howing.onQuiet hprocess hpoll hraises

theorem maintains_orAbort {m : Driver WtError α}
    (h : Maintains (Owing config peerConfig owed) m) :
    Maintains (Owing config peerConfig owed) (orAbort m) := by
  unfold orAbort
  apply maintains_bind (maintains_capture h)
  intro res
  cases res with
  | ok a => exact maintains_pure
  | error e => exact maintains_of_keeps (abortSessionWithWtError_keeps e)

theorem tame_pollOutput : Tame WtSession.pollOutput :=
  .of_call .pollOutput rfl (by simp) (by simp) rfl

theorem flushWtOutput_maintains : Maintains (Owing config peerConfig owed) flushWtOutput := by
  unfold flushWtOutput
  apply maintains_bind
  · exact maintains_get
  intro d
  apply maintains_bind
  · exact maintains_capture (maintains_onSession tame_pollOutput)
  intro res
  split
  · exact maintains_of_keeps (sendChunks_keeps _ _)
  · exact maintains_pure

/-! ## The streams that ended -/

/-- What was dispatched was reported. -/
theorem Owing.reported (h : Owing config peerConfig owed d) {id : Nat}
    (hmem : id ∈ endings d.dispatched) : id ∈ endings d.wtSession.notified := by
  obtain ⟨e, he, hended⟩ := List.mem_filterMap.1 hmem
  have hnotified : e ∈ d.wtSession.notified := by
    rw [← List.mem_reverse, h.queue]
    exact List.mem_append_left _ (List.mem_reverse.2 he)
  exact List.mem_filterMap.2 ⟨e, hnotified, hended⟩

theorem mem_endedStreams {bidirectional : Bool} {id : Nat} :
    id ∈ d.endedStreams bidirectional ↔ id ∈ endings d.dispatched ∧
      StreamId.isClientInitiated id = true ∧ StreamId.isBidirectional id = bidirectional := by
  rw [endedStreams, endedOn, List.mem_filter, Bool.and_eq_true, beq_iff_eq]

theorem Owing.nodup (h : Owing config peerConfig owed d)
    (hcount : d.wtSession.removedIds.length ≤ streamIdRecordMaxSize) (bidirectional : Bool) :
    (d.endedStreams bidirectional).Nodup := by
  have hclosing := h.run.closing hcount
  have hreverse : endings d.wtSession.notified.reverse
      = endings d.dispatched.reverse ++ endings d.wtSession.events := by
    rw [h.queue, endings, List.filterMap_append]
    rfl
  have hnodup : (endings d.dispatched).Nodup := by
    have hall : (endings d.wtSession.notified.reverse).Nodup := by
      rw [endings, List.filterMap_reverse, List.nodup_reverse]
      exact hclosing.nodup
    rw [hreverse] at hall
    have hleft := (List.nodup_append.1 hall).1
    rw [endings, List.filterMap_reverse, List.nodup_reverse] at hleft
    exact hleft
  exact hnodup.filter _

theorem WtRun.server {s : WtSession} (run : WtRun .server config peerConfig s) : s.role = .server :=
  (drifts_keeps (P := fun _ => True) run.drifts trivial fun _ _ _ _ _ _ => trivial).1.role

/-- Streams of the client of one direction that the session knows are as many as its limit at most. -/
theorem length_known_le {s : WtSession} (run : WtRun .server config peerConfig s)
    (hcount : s.removedIds.length ≤ streamIdRecordMaxSize) {bidirectional : Bool} {ids : List Nat}
    (hnodup : ids.Nodup) (hids : ∀ id ∈ ids, s.slot id ≠ .unknown ∧
      StreamId.isClientInitiated id = true ∧ StreamId.isBidirectional id = bidirectional) :
    ids.length ≤ s.flowControl.maxStreamsLocal bidirectional := by
  have hrole := WtRun.server run
  have hpeer : ∀ id, s.isPeerInitiated id = StreamId.isClientInitiated id := by
    intro id
    unfold Book.isPeerInitiated
    rw [hrole]
  -- the type of the client's streams of the direction
  obtain ⟨type, hlt, hclient, hdirection⟩ : ∃ type < 4, StreamId.isClientInitiated type = true ∧
      StreamId.isBidirectional type = bidirectional := by
    cases bidirectional with
    | true => exact ⟨0, by decide, by decide, by decide⟩
    | false => exact ⟨2, by decide, by decide, by decide⟩
  have htype : ∀ id, StreamId.isClientInitiated id = true →
      StreamId.isBidirectional id = bidirectional → id % 4 = type := by
    intro id hid hbidi
    rw [← hdirection, isBidirectional_eq, isBidirectional_eq, decide_eq_decide] at hbidi
    simp only [StreamId.isClientInitiated, StreamId.and_one, beq_iff_eq] at hid hclient
    omega
  obtain ⟨n, hle, hknown, -⟩ := ((WtReach.run run).table hcount).peers type hlt (hpeer type ▸ hclient)
  rw [hdirection] at hle
  have hsubset : ids ⊆ firstIds type n := by
    intro id hmem
    obtain ⟨hslot, hid, hbidi⟩ := hids id hmem
    have hmod := htype id hid hbidi
    rw [mem_firstIds hlt]
    refine ⟨hmod, (hknown _).1 ?_⟩
    have hsame : 4 * (id / 4) + type = id := by omega
    rw [hsame]
    exact hslot
  calc ids.length ≤ (firstIds type n).length := (List.subperm_of_subset hnodup hsubset).length_le
    _ = n := by simp [firstIds]
    _ ≤ s.flowControl.maxStreamsLocal bidirectional := hle

theorem Owing.ended_done (h : Owing config peerConfig owed d)
    (hcount : d.wtSession.removedIds.length ≤ streamIdRecordMaxSize) {id : Nat}
    (hmem : id ∈ endings d.dispatched) : (d.wtSession.slot id).Done :=
  (h.run.closing hcount).done id (h.reported hmem)

/-- The streams that ended and others that the session knows are as many as its limit at most. -/
theorem Owing.length_ended_le (h : Owing config peerConfig owed d)
    (hcount : d.wtSession.removedIds.length ≤ streamIdRecordMaxSize) {bidirectional : Bool}
    {ids : List Nat} (hids : ids.Nodup)
    (hopen : ∀ id ∈ ids, d.wtSession.Known id ∧ StreamId.isClientInitiated id = true ∧
      StreamId.isBidirectional id = bidirectional ∧ id ∉ d.endedStreams bidirectional) :
    ids.length + (d.endedStreams bidirectional).length ≤
      d.wtSession.flowControl.maxStreamsLocal bidirectional := by
  rw [← List.length_append]
  apply length_known_le h.run hcount
  · rw [List.nodup_append]
    refine ⟨hids, h.nodup hcount bidirectional, fun id hid id' hid' heq => ?_⟩
    exact (hopen id hid).2.2.2 (heq ▸ hid')
  · intro id hmem
    obtain hmem | hmem := List.mem_append.1 hmem
    · obtain ⟨hknown, hclient, hdirection, -⟩ := hopen id hmem
      exact ⟨known_iff.1 hknown, hclient, hdirection⟩
    · obtain ⟨hended, hclient, hdirection⟩ := mem_endedStreams.1 hmem
      have hdone := h.ended_done hcount hended
      refine ⟨fun hunknown => ?_, hclient, hdirection⟩
      rw [hunknown] at hdone
      exact hdone

/-! ## Counting an end -/

@[simp] theorem peerClosed_setPeerClosed (counted bidirectional : Bool) (count : Nat) :
    (d.setPeerClosed counted count).peerClosed bidirectional =
      if bidirectional = counted then count else d.peerClosed bidirectional := by
  cases counted <;> cases bidirectional <;> rfl

theorem setPeerClosed_frame (counted : Bool) (count : Nat) :
    (d.setPeerClosed counted count).wtSession = d.wtSession ∧
      (d.setPeerClosed counted count).dispatched = d.dispatched := by
  cases counted <;> exact ⟨rfl, rfl⟩

/-- What is owed on the end of a stream is paid, and the counter is far from its largest value. -/
theorem accountPeerStreamClosed_accounts {id : Nat} (h : Owing config peerConfig (due id) d) :
    Ensures (accountPeerStreamClosed id : Driver ε Unit) d fun _ d' => Accounts config peerConfig d' := by
  unfold accountPeerStreamClosed
  rw [ensures_ite]
  constructor
  · intro hclient
    rw [ensures_modify]
    obtain ⟨hsession, hdispatched⟩ := @setPeerClosed_frame d (StreamId.isBidirectional id)
      (saturatingAdd (d.peerClosed (StreamId.isBidirectional id)) 1)
    refine ⟨hsession ▸ h.run, ?_, fun hcount bidirectional => ?_⟩
    · rw [hsession, hdispatched]
      exact h.queue
    · rw [hsession] at hcount
      have hbalance := h.balance hcount bidirectional
      have hended := @Owing.length_ended_le _ _ _ _ h hcount bidirectional [] List.nodup_nil
        fun id hmem => absurd hmem List.not_mem_nil
      rw [List.length_nil, Nat.zero_add] at hended
      have hfits : config.initialMaxStreams bidirectional ≤ u64Max := by
        unfold WtConfig.initialMaxStreams
        split
        · exact Nat.le_of_lt_succ config.initialMaxStreamsBidi.toNat_lt
        · exact Nat.le_of_lt_succ config.initialMaxStreamsUni.toNat_lt
      rw [hsession, peerClosed_setPeerClosed, endedStreams, hdispatched]
      simp only [due, hclient, Bool.true_and, beq_iff_eq] at hbalance
      by_cases hsame : bidirectional = StreamId.isBidirectional id
      · subst hsame
        simp only [if_true] at hbalance ⊢
        rw [saturatingAdd, Nat.min_eq_left (by omega)]
        exact hbalance
      · rw [if_neg hsame]
        rw [if_neg (Ne.symm hsame)] at hbalance
        exact hbalance
  · intro hclient
    rw [ensures_pure]
    refine ⟨h.run, h.queue, fun hcount bidirectional => ?_⟩
    have hbalance := h.balance hcount bidirectional
    simp only [due, hclient, Bool.false_and, Bool.false_eq_true, if_false] at hbalance
    exact hbalance

/-! ## Dispatching events -/

theorem tame_maybeGrowSessionWindow : Tame maybeGrowSessionWindow := by
  unfold maybeGrowSessionWindow
  apply tame_get
  intro s
  apply tame_ite
  · exact .of_call (.growRecvWindow s.config.initialMaxData.toNat) rfl (by simp) (by simp) rfl
  · exact tame_pure

theorem tame_maybeGrowStreamWindow (streamId : Nat) : Tame (maybeGrowStreamWindow streamId) := by
  unfold maybeGrowStreamWindow
  apply tame_get
  intro s
  split
  · exact tame_pure
  · rename_i stream _
    apply tame_ite tame_pure
    apply tame_ite
    · exact .of_call (.growStreamRecvWindow streamId (initialWindow s streamId stream)) rfl
        (by simp) (by simp) rfl
    · exact tame_pure

/-- A stream that is done needs no window. -/
theorem maybeGrowStreamWindow_done {s : WtSession} {id : Nat} (hdone : (s.slot id).Done) :
    maybeGrowStreamWindow id s = (.ok (), s) := by
  unfold maybeGrowStreamWindow
  rw [bind_ok (rfl : (get : Wt WtSession) s = (.ok s, s))]
  cases hlive : s.stream? id with
  | none => rfl
  | some stream =>
    rw [Book.slot_eq_live.2 hlive] at hdone
    have hcannot : stream.canRecv = false := by
      by_contra hcan
      exact hdone (WtStream.recvState_of_canRecv (eq_true_of_ne_false hcan))
    dsimp only
    rw [if_pos hcannot]
    rfl

theorem accountPeerStreamClosed_bind {id : Nat} {m : Driver ε Unit}
    (h : Owing config peerConfig (due id) d) (hm : Prog.Keeps ledger m) :
    Ensures (accountPeerStreamClosed id >>= fun _ => m) d fun _ d' =>
      Accounts config peerConfig d' := by
  rw [ensures_bind]
  refine ensures_mono (accountPeerStreamClosed_accounts h) fun r d' h' => ?_
  cases r with
  | error e => exact h'
  | ok u => exact maintains_of_keeps hm d' h'

/-- Once the record of closed streams is full, nothing more is said of the credit. -/
theorem Owing.of_full {owed' : Bool → Nat} (h : Owing config peerConfig owed d)
    (hfull : ¬ d.wtSession.removedIds.length ≤ streamIdRecordMaxSize) :
    Owing config peerConfig owed' d :=
  ⟨h.run, h.queue, fun hcount => absurd hcount hfull⟩

theorem orAbort_session (m : Wt α) (d : DriverState) :
    Ensures (orAbort (onSession m)) d fun r d' => d'.wtSession = (m d.wtSession).2 ∧
      ((m d.wtSession).1.isOk = true → ∃ a, r = .ok a) := by
  simp only [orAbort, ensures_bind, ensures_capture, ensures_onSession]
  rcases hrun : m d.wtSession with ⟨r, s⟩
  rw [ensures_run hrun]
  cases r with
  | ok a => exact ⟨rfl, fun _ => ⟨a, rfl⟩⟩
  | error e =>
    have hkeeps := abortSessionWithWtError_keeps (α := α) e { d with wtSession := s }
    refine ⟨(Prod.mk.inj hkeeps).1, fun hok => ?_⟩
    cases hok

theorem Tame.removedIds {m : Wt α} {s : WtSession} (h : Tame m)
    (run : WtRun .server config peerConfig s) :
    s.removedIds.length ≤ (m s).2.removedIds.length := by
  obtain hsame | ⟨call, -, -, -, hcall⟩ := h s
  · rw [hsame]
  · rw [hcall]
    exact run.removedIds call

/-- The end of a stream that data brings is counted. -/
theorem dispatchStreamData_accounts {id : Nat} {data : Bytes}
    (h : Owing config peerConfig (due id) d) (hmem : id ∈ endings d.dispatched) :
    Ensures (dispatchStreamData id data true) d fun _ d' => Accounts config peerConfig d' := by
  simp only [dispatchStreamData, ensures_bind, ensures_get, if_true]
  split
  · -- after `stop_sending` the data is dropped
    rw [ensures_bind, removeChannel, ensures_modify]
    exact accountPeerStreamClosed_bind (h.congr rfl) fun _ => rfl
  · rw [ensures_bind]
    refine ensures_mono (deliverPacket_spec id (.data data true)) fun r d₁ h₁ => ?_
    obtain ⟨rfl, hsame⟩ := h₁
    have h₁ := h.congr hsame
    have hmem₁ : id ∈ endings d₁.dispatched := by
      obtain ⟨-, hrest⟩ := Prod.mk.inj hsame
      obtain ⟨hdispatched, -⟩ := Prod.mk.inj hrest
      rw [hdispatched]
      exact hmem
    have hwindow : Maintains (Owing config peerConfig (due id))
        (orAbort (onSession (maybeGrowStreamWindow id))) :=
      maintains_orAbort (maintains_onSession (tame_maybeGrowStreamWindow id))
    refine ensures_bind.2 (ensures_mono (ensures_and (hwindow.ensures h₁)
      (orAbort_session (maybeGrowStreamWindow id) d₁)) fun r d₂ h₂ => ?_)
    obtain ⟨howing, hsession, hok⟩ := h₂
    cases r with
    | ok u =>
      change Ensures (removeChannel id >>= fun _ => accountPeerStreamClosed id) d₂ _
      rw [ensures_bind, removeChannel, ensures_modify]
      exact accountPeerStreamClosed_accounts (howing.congr rfl)
    | error e =>
      -- the stream is done, so this is past the record of closed streams
      apply howing.of_full
      intro hcount
      have hmore := (tame_maybeGrowStreamWindow id).removedIds h₁.run
      rw [hsession] at hcount
      have hdone := h₁.ended_done (Nat.le_trans hmore hcount) hmem₁
      obtain ⟨a, ha⟩ := hok (by rw [maybeGrowStreamWindow_done hdone]; rfl)
      cases ha

/-- Data that ends no stream counts nothing. -/
theorem dispatchStreamData_maintains (id : Nat) (data : Bytes) :
    Maintains (Owing config peerConfig owed) (dispatchStreamData id data false) := by
  have hwindow : Maintains (Owing config peerConfig owed)
      (orAbort (onSession (maybeGrowStreamWindow id))) :=
    maintains_orAbort (maintains_onSession (tame_maybeGrowStreamWindow id))
  intro d h
  change Ensures (dispatchStreamData id data false) d fun _ d' => Owing config peerConfig owed d'
  simp only [dispatchStreamData, ensures_bind, ensures_get, Bool.false_eq_true, if_false]
  split
  · exact h
  · rw [ensures_bind]
    refine ensures_mono (deliverPacket_spec id (.data data false)) fun r d₁ h₁ => ?_
    obtain ⟨rfl, hsame⟩ := h₁
    apply (maintains_bind hwindow fun _ => ?_) d₁ (h.congr hsame)
    exact maintains_pure

/-- A driver that logged an event owes what the event ends. -/
theorem dispatchWtEvent_accounts {e : WtEvent}
    (hnone : e.ended? = none → Accounts config peerConfig d)
    (hsome : ∀ id, e.ended? = some id →
      Owing config peerConfig (due id) d ∧ id ∈ endings d.dispatched) :
    Ensures (dispatchWtEvent e) d fun _ d' => Accounts config peerConfig d' := by
  cases e with
  | streamOpened id bidirectional =>
    exact (hnone rfl).congr rfl
  | streamData id data fin =>
    cases fin with
    | true =>
      obtain ⟨howing, hmem⟩ := hsome id rfl
      exact dispatchStreamData_accounts howing hmem
    | false => exact dispatchStreamData_maintains id data d (hnone rfl)
  | streamReset id errorCode =>
    obtain ⟨howing, -⟩ := hsome id rfl
    simp only [dispatchWtEvent]
    refine ensures_bind.2 (ensures_mono (deliverPacket_spec id (.reset errorCode))
      fun r d₁ h₁ => ?_)
    obtain ⟨rfl, hsame⟩ := h₁
    change Ensures (removeChannel id >>= fun _ => accountPeerStreamClosed id >>= fun _ =>
      removeStopSendingSent id) d₁ _
    rw [ensures_bind, removeChannel, ensures_modify]
    exact accountPeerStreamClosed_bind ((howing.congr hsame).congr rfl) fun _ => rfl
  | stopSending | sessionDraining | sessionClosed => exact hnone rfl
  | datagramReceived data => exact (hnone rfl).congr rfl

/-- What is polled is logged, and what it ends is owed. -/
theorem Owing.polled (h : Accounts config peerConfig d) :
    Ensures (onSession WtSession.pollEvent) d fun r d' =>
      (∀ e, r ≠ .ok (some e)) ∧ Accounts config peerConfig d' ∨
        ∃ e, r = .ok (some e) ∧
          (e.ended? = none →
            Accounts config peerConfig { d' with dispatched := e :: d'.dispatched }) ∧
          ∀ id, e.ended? = some id →
            Owing config peerConfig (due id) { d' with dispatched := e :: d'.dispatched } ∧
              id ∈ endings (e :: d'.dispatched) := by
  rw [ensures_onSession]
  have hcall : ((WtCall.exec .pollEvent) d.wtSession).2 = (pollEvent d.wtSession).2 := exec_snd _
  have hrun := hcall ▸ h.run.call .pollEvent
  have hmore := hcall ▸ h.run.removedIds .pollEvent
  have hspec := pollEvent_spec d.wtSession
  unfold Ensures at hspec ⊢
  generalize pollEvent d.wtSession = out at hspec hrun hmore ⊢
  obtain ⟨r, s⟩ := out
  obtain ⟨hnotified, hsent, ⟨-, hr, hs⟩ | ⟨e, rest, hevents, hr, hrest⟩⟩ := hspec
  · refine .inl ⟨fun e he => ?_, ?_⟩
    · cases hr.symm.trans he
    · change Owing _ _ _ { d with wtSession := s }
      rw [show s = d.wtSession from hs]
      exact h
  · have hqueue : s.notified.reverse = (e :: d.dispatched).reverse ++ s.events := by
      rw [show s.notified = d.wtSession.notified from hnotified, h.queue, hevents,
        show s.events = rest from hrest, List.reverse_cons, List.append_assoc]
      rfl
    have hsame := h.run.announced.maxStreamsLocal hrun.announced
      (congrArg limits (show s.sent = d.wtSession.sent from hsent))
    refine .inr ⟨e, hr, fun hended => ⟨hrun, hqueue, fun hcount bidirectional => ?_⟩,
      fun id hended => ⟨⟨hrun, hqueue, fun hcount bidirectional => ?_⟩, ?_⟩⟩
    · change s.flowControl.maxStreamsLocal bidirectional + _ + _ =
        _ + (endedOn bidirectional (e :: d.dispatched)).length
      rw [hsame, endedOn_cons_none hended]
      exact h.balance (Nat.le_trans hmore hcount) bidirectional
    · change s.flowControl.maxStreamsLocal bidirectional + d.peerClosed bidirectional + _ =
        _ + (endedOn bidirectional (e :: d.dispatched)).length
      have hbalance := h.balance (Nat.le_trans hmore hcount) bidirectional
      rw [hsame, length_endedOn_cons hended]
      change _ = _ + (endedOn bidirectional d.dispatched).length at hbalance
      omega
    · rw [endings_cons_some hended]
      exact List.mem_cons_self ..

theorem dispatchEvents_maintains (count : Nat) :
    Maintains (Accounts config peerConfig) (dispatchEvents count) := by
  induction count with
  | zero => exact maintains_pure
  | succ count ih =>
    intro d h
    change Ensures (dispatchEvents (count + 1)) d fun _ d' => Accounts config peerConfig d'
    simp only [dispatchEvents, ensures_bind, ensures_capture]
    refine ensures_mono (Owing.polled h) fun r d₁ hpolled => ?_
    obtain ⟨hnone, haccounts⟩ | ⟨e, rfl, hnone, hsome⟩ := hpolled
    · cases r with
      | error e => exact haccounts
      | ok polled =>
        cases polled with
        | none => exact haccounts
        | some e => exact absurd rfl (hnone e)
    · simp only [ensures_bind, ensures_modify]
      refine ensures_mono (dispatchWtEvent_accounts hnone hsome) fun r d₂ h₂ => ?_
      cases r with
      | error e => exact h₂
      | ok u => exact ih d₂ h₂

theorem accountPeerStreamClosed_session (id : Nat) :
    Prog.Keeps (fun d => d.wtSession) (accountPeerStreamClosed id : Driver ε Unit) := by
  unfold accountPeerStreamClosed
  apply keeps_ite
  · intro d
    exact (setPeerClosed_frame _ _).1
  · exact keeps_pure

theorem Tame.events {m : Wt α} {s : WtSession} (h : Tame m)
    (run : WtRun .server config peerConfig s) : (m s).2.events = s.events := by
  obtain hsame | ⟨call, hprocess, hpoll, hraises, hcall⟩ := h s
  · rw [hsame]
  · rw [hcall]
    exact (exec_quiet run.kept.send hprocess hpoll hraises).events

/-- Nothing is queued while an event is dispatched. -/
theorem dispatchWtEvent_events (run : WtRun .server config peerConfig d.wtSession) (e : WtEvent) :
    Ensures (dispatchWtEvent e) d fun _ d' => d'.wtSession.events = d.wtSession.events := by
  have hends : ∀ (id : Nat) (d' : DriverState), d'.wtSession.events = d.wtSession.events →
      Ensures (do removeChannel id; accountPeerStreamClosed id : Driver DriverError Unit) d'
        fun _ d' => d'.wtSession.events = d.wtSession.events := by
    intro id d' hsame
    rw [ensures_bind, removeChannel, ensures_modify]
    refine ensures_mono ((accountPeerStreamClosed_session id).ensures _) fun r d'' h => ?_
    rw [h]
    exact hsame
  have hcloses : ∀ (id : Nat) (d' : DriverState), d'.wtSession.events = d.wtSession.events →
      Ensures (do
          removeChannel id
          accountPeerStreamClosed id
          removeStopSendingSent id : Driver DriverError Unit) d'
        fun _ d' => d'.wtSession.events = d.wtSession.events := by
    intro id d' hsame
    rw [ensures_bind, removeChannel, ensures_modify]
    refine ensures_bind.2 (ensures_mono ((accountPeerStreamClosed_session id).ensures _)
      fun r d'' h => ?_)
    have hevents : d''.wtSession.events = d.wtSession.events := by
      rw [h]
      exact hsame
    cases r with
    | error e => exact hevents
    | ok u => exact hevents
  cases e with
  | streamOpened | stopSending | datagramReceived | sessionDraining | sessionClosed => exact rfl
  | streamReset id errorCode =>
    refine ensures_bind.2 (ensures_mono (deliverPacket_spec id (.reset errorCode)) fun r d₁ h₁ => ?_)
    obtain ⟨rfl, hsame⟩ := h₁
    exact hcloses id d₁ (by rw [(Prod.mk.inj hsame).1])
  | streamData id data fin =>
    simp only [dispatchWtEvent, dispatchStreamData, ensures_bind, ensures_get]
    split
    · cases fin with
      | true => exact hcloses id d rfl
      | false => exact rfl
    · rw [ensures_bind]
      refine ensures_mono (deliverPacket_spec id (.data data fin)) fun r d₁ h₁ => ?_
      obtain ⟨rfl, hsame⟩ := h₁
      have hsession := (Prod.mk.inj hsame).1
      refine ensures_bind.2 (ensures_mono (orAbort_session (maybeGrowStreamWindow id) d₁)
        fun r d₂ h₂ => ?_)
      have hevents : d₂.wtSession.events = d.wtSession.events := by
        rw [h₂.1, hsession]
        exact (tame_maybeGrowStreamWindow id).events run
      cases r with
      | error e => exact hevents
      | ok u =>
        cases fin with
        | true => exact hends id d₂ hevents
        | false => exact hevents

/-- The loop that dispatches goes on until nothing is queued, unless it fails. -/
theorem dispatchEvents_drained (count : Nat) (h : Accounts config peerConfig d)
    (hqueue : d.wtSession.events.length ≤ count) :
    Ensures (dispatchEvents count) d fun r d' => r = .ok () → d'.wtSession.events = [] := by
  induction count generalizing d with
  | zero =>
    intro _
    exact List.length_eq_zero_iff.1 (Nat.le_zero.1 hqueue)
  | succ count ih =>
    have hevents : Ensures (onSession WtSession.pollEvent : Driver WtError _) d fun r d' =>
        d.wtSession.events = [] ∧ r = .ok none ∧ d' = d ∨
          ∃ e rest, d.wtSession.events = e :: rest ∧ r = .ok (some e) ∧
            d'.wtSession.events = rest := by
      rw [ensures_onSession]
      refine ensures_mono (pollEvent_spec d.wtSession) fun r s h => ?_
      obtain ⟨-, -, ⟨hnil, hr, rfl⟩ | hcons⟩ := h
      · exact .inl ⟨hnil, hr, rfl⟩
      · exact .inr hcons
    simp only [dispatchEvents, ensures_bind, ensures_capture]
    refine ensures_mono (ensures_and (Owing.polled h) hevents) fun r d₁ hpolled => ?_
    obtain ⟨haccounts, ⟨hnil, rfl, rfl⟩ | ⟨e, rest, hcons, rfl, hrest⟩⟩ := hpolled
    · exact fun _ => hnil
    · obtain ⟨hnone, -⟩ | ⟨e', he, hnone, hsome⟩ := haccounts
      · exact absurd rfl (hnone e)
      · obtain rfl := Option.some.inj (Except.ok.inj he)
        have hrun : WtRun .server config peerConfig d₁.wtSession := by
          cases hended : e.ended? with
          | none => exact (hnone hended).run
          | some id => exact (hsome id hended).1.run
        simp only [ensures_bind, ensures_modify]
        refine ensures_mono (ensures_and (dispatchWtEvent_accounts hnone hsome)
          (dispatchWtEvent_events (d := { d₁ with dispatched := e :: d₁.dispatched }) hrun e))
          fun r d₂ h₂ => ?_
        cases r with
        | error e =>
          intro hok
          cases hok
        | ok u =>
          apply ih h₂.1
          have hlength : d₂.wtSession.events = rest := h₂.2.trans hrest
          rw [hcons, List.length_cons] at hqueue
          rw [hlength]
          omega

/-! ## Giving credit -/

/-- What was counted is given out, all of it or nothing. -/
theorem maybeGrowMaxStreams_maintains (raised : Bool) :
    Maintains (Accounts config peerConfig) (maybeGrowMaxStreams raised) := by
  intro d h
  change Ensures (maybeGrowMaxStreams raised) d fun _ d' => Accounts config peerConfig d'
  simp only [maybeGrowMaxStreams, ensures_bind, ensures_get, ensures_ite, ensures_pure]
  refine ⟨fun _ => h, fun _ => ⟨fun _ => ?_, fun _ => h⟩⟩
  simp only [ensures_onSession, ensures_modify]
  have hcall : ((WtCall.exec (.growMaxStreams (d.peerClosed raised) raised)) d.wtSession).2
      = (growMaxStreams (d.peerClosed raised) raised d.wtSession).2 := exec_snd _
  have hrun := hcall ▸ h.run.call (.growMaxStreams (d.peerClosed raised) raised)
  have hspec := growMaxStreams_spec d.wtSession (d.peerClosed raised) raised
  unfold Ensures at hspec ⊢
  generalize growMaxStreams (d.peerClosed raised) raised d.wtSession = out at hspec hrun ⊢
  obtain ⟨r, s⟩ := out
  obtain ⟨e, hr, hs⟩ | ⟨-, hr, maximum, -, -, hmaximum, hs⟩ := hspec
  · obtain rfl : r = .error e := hr
    obtain rfl : s = d.wtSession := hs
    exact h
  · obtain rfl : r = .ok () := hr
    obtain rfl : s = _ := hs
    obtain ⟨hsession, hdispatched⟩ := @setPeerClosed_frame { d with
      wtSession := d.wtSession.sends (.wtMaxStreams maximum raised)
        ((d.wtSession.toBook.setFlow (raiseLocal d.wtSession.flowControl maximum raised)).logSent
          (.wtMaxStreams maximum raised)) } raised 0
    refine ⟨hsession ▸ hrun, ?_, fun hcount bidirectional => ?_⟩
    · rw [hsession, hdispatched]
      exact h.queue
    · rw [hsession] at hcount
      have hbalance := h.balance hcount bidirectional
      rw [hsession, peerClosed_setPeerClosed, endedStreams, hdispatched]
      change (raiseLocal d.wtSession.flowControl maximum raised).maxStreamsLocal bidirectional + _ + 0
        = _ + (d.endedStreams bidirectional).length
      by_cases hsame : bidirectional = raised
      · subst hsame
        have hraised : (raiseLocal d.wtSession.flowControl maximum bidirectional).maxStreamsLocal
            bidirectional = maximum := by
          cases bidirectional <;> rfl
        rw [if_pos rfl, hraised, hmaximum]
        exact hbalance
      · have hother : (raiseLocal d.wtSession.flowControl maximum raised).maxStreamsLocal
            bidirectional = d.wtSession.flowControl.maxStreamsLocal bidirectional := by
          cases raised <;> cases bidirectional <;> first | rfl | exact absurd rfl hsame
        rw [if_neg hsame, hother]
        exact hbalance

theorem process_maintains : Maintains (Accounts config peerConfig) (onSession WtSession.process) := by
  intro d h
  have hcall : ((WtCall.exec .process) d.wtSession).2 = (WtSession.process d.wtSession).2 := exec_snd _
  have hrun := hcall ▸ h.run.call .process
  have hmore := hcall ▸ h.run.removedIds .process
  have hclosing := fun htable hclosing => @process_closing d.wtSession htable hclosing
  obtain ⟨cs, hprocessed⟩ := process_spec d.wtSession
  have hextends := hprocessed.extends
  unfold Ensures at hclosing
  change Accounts config peerConfig { d with wtSession := (WtSession.process d.wtSession).2 }
  refine ⟨hrun, ?_, fun hcount bidirectional => ?_⟩
  · obtain ⟨new, hnotified, hevents⟩ := hextends.events
    change (WtSession.process d.wtSession).2.notified.reverse
      = _ ++ (WtSession.process d.wtSession).2.events
    rw [hnotified, hevents, List.reverse_append, h.queue, List.append_assoc]
  · have hcount₀ := Nat.le_trans hmore hcount
    have htable := (WtReach.run h.run).table hcount₀
    have hlimits := (hclosing htable (h.run.closing hcount₀) hcount).1
    have hsame := h.run.announced.maxStreamsLocal hrun.announced hlimits bidirectional
    change (WtSession.process d.wtSession).2.flowControl.maxStreamsLocal bidirectional + _ + _ = _
    rw [hsame]
    exact h.balance hcount₀ bidirectional

theorem receive_maintains (data : Bytes) : Maintains (Accounts config peerConfig) (receive data) := by
  have hfeed : Tame (WtSession.feed data) := .of_call (.feed data) rfl (by simp) (by simp) rfl
  unfold receive
  apply maintains_bind
  · exact maintains_orAbort (maintains_onSession hfeed)
  intro _
  exact maintains_orAbort process_maintains

/-! ## Commands and events of the connection -/

theorem sendCmdResult_maintains (res : WtResult Ack) :
    Maintains (Accounts config peerConfig) (sendCmdResult res) := by
  unfold sendCmdResult
  cases res with
  | error e => exact maintains_pure
  | ok value =>
    apply maintains_bind
    · exact maintains_capture flushWtOutput_maintains
    intro sent
    cases sent with
    | ok u => exact maintains_pure
    | error e => exact maintains_pure

theorem finishClose_maintains : Maintains (Accounts config peerConfig) finishClose := by
  unfold finishClose
  apply maintains_bind
  · exact flushWtOutput_maintains
  intro _
  apply maintains_bind
  · exact maintains_get
  intro d
  apply maintains_bind
  · exact maintains_of_keeps (request_keeps _)
  intro _
  apply maintains_bind
  · exact maintains_of_keeps reply_keeps
  intro pending
  apply maintains_bind
  · exact maintains_require
  intro _
  exact maintains_of_keeps fun _ => rfl

/-- A command that is one call on the session, and an answer. -/
theorem maintains_call {m : Wt α} {f : WtResult α → Driver DriverError β} (hm : Tame m)
    (hf : ∀ res, Maintains (Accounts config peerConfig) (f res)) :
    Maintains (Accounts config peerConfig) (capture (onSession m) >>= f) := by
  apply maintains_bind
  · exact maintains_capture (maintains_onSession hm)
  · exact hf

theorem handleCmd_maintains (c : DriverCmd) : Maintains (Accounts config peerConfig) (handleCmd c) := by
  cases c with
  | sendStreamData id data fin =>
    have hsend : Tame (WtSession.sendStreamData id data fin) :=
      .of_call (.sendStreamData id data fin) rfl (by simp) (by simp) rfl
    exact maintains_call hsend fun res => sendCmdResult_maintains _
  | openBidi =>
    have hopen : Tame WtSession.openBidiStream :=
      .of_call .openBidiStream rfl (by simp) (by simp) rfl
    apply maintains_call hopen
    intro res
    cases res with
    | error e => exact sendCmdResult_maintains _
    | ok id =>
      apply maintains_bind
      · exact maintains_of_keeps fun _ => rfl
      intro _
      exact sendCmdResult_maintains _
  | openUni =>
    have hopen : Tame WtSession.openUniStream :=
      .of_call .openUniStream rfl (by simp) (by simp) rfl
    exact maintains_call hopen fun res => sendCmdResult_maintains _
  | sendDatagram data =>
    have hsend : Tame (WtSession.sendDatagram data) :=
      .of_call (.sendDatagram data) rfl (by simp) (by simp) rfl
    exact maintains_call hsend fun res => sendCmdResult_maintains _
  | resetStream id errorCode =>
    have hreset : Tame (WtSession.resetStream id errorCode) :=
      .of_call (.resetStream id errorCode) rfl (by simp) (by simp) rfl
    exact maintains_call hreset fun res => sendCmdResult_maintains _
  | stopSending id errorCode =>
    have hstop : Tame (WtSession.stopSending id errorCode) :=
      .of_call (.stopSending id errorCode) rfl (by simp) (by simp) rfl
    apply maintains_call hstop
    intro res
    apply maintains_bind
    · exact maintains_get
    intro d
    apply maintains_when
    · exact maintains_of_keeps fun _ => rfl
    · exact sendCmdResult_maintains _
  | close errorCode reason =>
    have hclose : Tame (WtSession.close errorCode reason) :=
      .of_call (.close errorCode reason) rfl (by simp) (by simp) rfl
    apply maintains_call hclose
    intro res
    cases res with
    | error e => exact maintains_pure
    | ok u =>
      apply maintains_bind
      · exact maintains_capture finishClose_maintains
      intro res
      exact maintains_pure
  | drain =>
    have hdrain : Tame WtSession.drain := .of_call .drain rfl (by simp) (by simp) rfl
    exact maintains_call hdrain fun res => sendCmdResult_maintains _

theorem handleEvent_maintains (e : Event) : Maintains (Accounts config peerConfig) (handleEvent e) := by
  cases e with
  | dataReceived streamId data endStream =>
    unfold handleEvent
    apply maintains_bind
    · exact maintains_get
    intro d
    apply maintains_ite
    · apply maintains_bind
      · exact receive_maintains data
      intro _
      apply maintains_bind
      · exact maintains_get
      intro d
      apply maintains_bind
      · exact dispatchEvents_maintains _
      intro _
      apply maintains_bind
      · exact maintains_of_keeps respondToClose_keeps
      intro _
      apply maintains_bind
      · exact maintains_orAbort (maintains_onSession tame_maybeGrowSessionWindow)
      intro _
      apply maintains_bind
      · exact maintains_orAbort (maybeGrowMaxStreams_maintains true)
      intro _
      apply maintains_bind
      · exact maintains_orAbort (maybeGrowMaxStreams_maintains false)
      intro _
      apply maintains_bind
      · exact maintains_of_keeps (sendWindowUpdates_keeps _ _)
      intro _
      apply maintains_bind
      · exact flushWtOutput_maintains
      intro _
      exact maintains_require
    · exact maintains_pure
  | streamReset | streamClosed =>
    unfold handleEvent
    apply maintains_bind
    · exact maintains_get
    intro d
    exact maintains_require
  | connectionPreface | settingsReceived | headersReceived | trailersReceived | dataDiscarded
  | pingReceived | goawayReceived | windowUpdateReceived | priorityUpdateReceived =>
    exact maintains_pure

/-! ## Runs -/

theorem accounts_accepted (connectStreamId : Nat) (localSettings : Settings) (replies : List Bool) :
    Accounts (config.applyAdvertisedSettings localSettings) peerConfig
      (accepted connectStreamId localSettings config peerConfig replies) := by
  have hrun : WtRun .server (config.applyAdvertisedSettings localSettings) peerConfig
      (WtSession.initiate
        (WtSession.server (config.applyAdvertisedSettings localSettings) peerConfig)).2 :=
    WtRun.init.call .initiate
  refine ⟨hrun, rfl, fun _ bidirectional => ?_⟩
  cases bidirectional <;> rfl

theorem Run.accounts {start : DriverState} (h : Run start d)
    (hstart : Accounts config peerConfig start) : Accounts config peerConfig d := by
  induction h with
  | accepted => exact hstart
  | cmd _ c h ih =>
    have hmaintains := handleCmd_maintains c _ ih
    rw [h] at hmaintains
    exact hmaintains
  | event _ e h ih =>
    have hmaintains := handleEvent_maintains e _ ih
    rw [h] at hmaintains
    exact hmaintains

theorem Reach.accounts {start : DriverState} (h : Reach start d)
    (hstart : Accounts config peerConfig start) : Accounts config peerConfig d := by
  cases h with
  | run h => exact h.accounts hstart
  | cmd h c => exact handleCmd_maintains c _ (h.accounts hstart)
  | event h e => exact handleEvent_maintains e _ (h.accounts hstart)
  | dispatching h data count =>
    have hdispatching : Maintains (Accounts config peerConfig)
        (do receive data; dispatchEvents count : Driver DriverError Unit) := by
      apply maintains_bind
      · exact receive_maintains data
      intro _
      exact dispatchEvents_maintains count
    exact hdispatching _ (h.accounts hstart)

/-- In every state of a driver whose session removed no more streams than it can remember, and for
the streams of each direction: the limit that the session keeps and what is counted but not given out
yet are the limit at the start and the streams of the client whose end was dispatched, each of which
ended once. So the client never has more streams than at the start that are open and whose end was
not dispatched, and none of the streams that may still bring something is among those that ended. -/
theorem stream_credit {connectStreamId : Nat} {localSettings : Settings} {replies : List Bool}
    (reach : Reach (accepted connectStreamId localSettings config peerConfig replies) d)
    (hcount : d.wtSession.removedIds.length ≤ streamIdRecordMaxSize) (bidirectional : Bool) :
    d.wtSession.flowControl.maxStreamsLocal bidirectional + d.peerClosed bidirectional =
        (config.applyAdvertisedSettings localSettings).initialMaxStreams bidirectional
          + (d.endedStreams bidirectional).length ∧
      (d.endedStreams bidirectional).Nodup ∧
      (∀ id stream, d.wtSession.stream? id = some stream → stream.recvState = .recv →
        id ∉ d.endedStreams bidirectional) ∧
      ∀ ids : List Nat, ids.Nodup →
        (∀ id ∈ ids, d.wtSession.Known id ∧ StreamId.isClientInitiated id = true ∧
          StreamId.isBidirectional id = bidirectional ∧ id ∉ d.endedStreams bidirectional) →
        ids.length ≤
          (config.applyAdvertisedSettings localSettings).initialMaxStreams bidirectional := by
  have haccounts := reach.accounts (accounts_accepted connectStreamId localSettings replies)
  have hbalance := haccounts.balance hcount bidirectional
  have hnodup := haccounts.nodup hcount bidirectional
  refine ⟨hbalance, hnodup, fun id stream hlive hrecv hmem => ?_, fun ids hids hopen => ?_⟩
  · have hdone := haccounts.ended_done hcount (mem_endedStreams.1 hmem).1
    rw [Book.slot_eq_live.2 hlive] at hdone
    exact hdone hrecv
  · have hall := haccounts.length_ended_le hcount hids hopen
    omega

end Accounts

/-- SETTINGS that announce room for one stream. -/
def oneStream : Settings := { Settings.new with
  wtInitialMaxData := some 100
  wtInitialMaxStreamDataBidiRemote := some 10
  wtInitialMaxStreamsBidi := some 1 }

/-- A driver whose client opened a stream and ended it at once. -/
def endedOne : DriverState :=
  (handleEvent (.dataReceived 1 (Capsule.wtStream 0 [7] true).encode false)
    (accepted 1 oneStream .default .peerDefault [])).2

theorem stream_credit_endedOne : endedOne.wtSession.removedIds.length ≤ streamIdRecordMaxSize ∧
    endedOne.endedStreams true = [0] ∧
    endedOne.wtSession.flowControl.maxStreamsLocal true + endedOne.peerClosed true =
      (WtConfig.default.applyAdvertisedSettings oneStream).initialMaxStreams true
        + (endedOne.endedStreams true).length :=
  ⟨by decide +kernel, by decide +kernel,
    (stream_credit (.event .accepted _) (by decide +kernel) true).1⟩

end DriverState

end Http2.WebTransport
