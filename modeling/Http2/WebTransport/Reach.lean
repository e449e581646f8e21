import Http2.WebTransport.Deliver

/-! The books that a session reaches: every public operation makes moves, and what every move keeps
holds throughout. -/
namespace Http2.WebTransport

open Lib Lib.Prog WtSession

/-! ## What moves leave alone -/

namespace Book

variable (b : Book) (id : Nat)

/-- A stream that is put back changes the table and the records of what is closed. -/
theorem settle_frame (s : WtStream) : ∃ streams closed removed, b.settle id s = { b with
    streams := streams
    closedStreamSendMax := closed
    removedIds := removed } := by
  unfold settle removeIfClosed
  split
  · exact ⟨_, _, _, rfl⟩
  · split <;> exact ⟨_, _, _, rfl⟩

theorem recordStopSending_frame : ∃ streams ids, recordStopSending b id = { b with
    streams := streams
    stopSendingReceivedIds := ids } := by
  unfold recordStopSending
  split <;> exact ⟨_, _, rfl⟩

theorem openLocal_frame (bidirectional : Bool) :
    ∃ streams opened fc bidi uni, b.openLocal bidirectional = { b with
      streams := streams
      openedIds := opened
      flowControl := fc
      nextBidiStreamId := bidi
      nextUniStreamId := uni } := by
  cases bidirectional <;> exact ⟨_, _, _, _, _, rfl⟩

end Book

/-- A book is of one session all the way. -/
structure SameSession (b b' : Book) : Prop where
  role : b'.role = b.role
  config : b'.config = b.config
  peerConfig : b'.peerConfig = b.peerConfig

section Steps

variable {b b' : Book}

/-- A move, or what a failure leaves behind. -/
def Drift (b b' : Book) : Prop := Move b b' ∨ Stray b b'

theorem SendsData.frame {id : Nat} {data : Bytes} {fin : Bool} (h : SendsData b id data fin b') :
    ∃ streams closed removed fc, b.flowControl.consumeSend data.length = .ok fc ∧
      data.length ≤ b.flowControl.sendAvailable ∧ b' = { b with
        streams := streams
        closedStreamSendMax := closed
        removedIds := removed
        flowControl := fc
        sent := .wtStream id data fin :: b.sent } := by
  obtain ⟨s, s', fc, -, -, -, hfc, hroom, rfl⟩ := h
  obtain ⟨_, _, _, hsettle⟩ := Book.settle_frame ((b.setFlow fc).logSent (.wtStream id data fin)) id s'
  exact ⟨_, _, _, fc, hfc, hroom, hsettle⟩

theorem Move.sameSession (h : Move b b') : SameSession b b' := by
  cases h with
  | openLocal bidirectional =>
    obtain ⟨_, _, _, _, _, h⟩ := b.openLocal_frame bidirectional
    rw [h]
    exact ⟨rfl, rfl, rfl⟩
  | sendData _ id data fin h =>
    obtain ⟨_, _, _, _, -, -, rfl⟩ := SendsData.frame h
    exact ⟨rfl, rfl, rfl⟩
  | sendReset id errorCode s =>
    obtain ⟨_, _, _, h⟩ := Book.settle_frame
      (b.logSent (.wtResetStream id errorCode s.sendOffset)) id s.sendReset
    rw [Resets, h]
    exact ⟨rfl, rfl, rfl⟩
  | takeReset id errorCode s =>
    obtain ⟨_, _, _, h⟩ := Book.settle_frame
      (b.logReceived (.wtResetStream id errorCode s.recvOffset)) id s.recvReset
    rw [h]
    exact ⟨rfl, rfl, rfl⟩
  | takeStop id errorCode =>
    obtain ⟨_, _, h⟩ := b.recordStopSending_frame id
    rw [h]
    exact ⟨rfl, rfl, rfl⟩
  | read id s =>
    obtain ⟨_, _, _, h⟩ := b.settle_frame id s.markDataRead
    rw [h]
    exact ⟨rfl, rfl, rfl⟩
  | sendStop | sendDatagram | sendClose | sendDrain | sendMaxData | sendMaxStreamData
  | sendMaxStreams | create | takeData | takeMaxData | takeMaxStreamData | takeMaxStreamDataClosed
  | takeMaxStreamDataLost | takeMaxStreams | takePassive | notify => exact ⟨rfl, rfl, rfl⟩

theorem Drift.sameSession (h : Drift b b') : SameSession b b' := by
  obtain h | h := h
  · exact h.sameSession
  · cases h
    exact ⟨rfl, rfl, rfl⟩

/-! ## The flow control of the session -/

/-- How many streams of one direction were opened here. -/
def WtFlowControl.openedStreams (fc : WtFlowControl) (bidirectional : Bool) : Nat :=
  if bidirectional then fc.openedStreamsBidi else fc.openedStreamsUni

/-- Capsules that say nothing to the flow control of a session. -/
def Capsule.Unmetered : Capsule → Prop
  | .wtStream _ _ _ | .wtMaxData _ | .wtMaxStreams _ _ => False
  | _ => True

/-- A step of the flow control, with the capsules that go out and that are taken in it. -/
inductive FlowStep (fc : WtFlowControl) :
    WtFlowControl → List Capsule → List Capsule → Prop
  | stays (sent received : List Capsule) (hsent : ∀ c ∈ sent, c.Unmetered)
    (hreceived : ∀ c ∈ received, c.Unmetered) : FlowStep fc fc sent received
  | opens (bidirectional : Bool)
    (hroom : fc.openedStreams bidirectional < fc.maxStreamsRemote bidirectional) :
    FlowStep fc (fc.openedStream bidirectional) [] []
  | sends (fc' : WtFlowControl) (id : Nat) (data : Bytes) (fin : Bool)
    (hroom : data.length ≤ fc.sendAvailable) (h : fc.consumeSend data.length = .ok fc') :
    FlowStep fc fc' [.wtStream id data fin] []
  | takes (fc' : WtFlowControl) (id : Nat) (data : Bytes) (fin : Bool)
    (h : fc.consumeRecv data.length = .ok fc') : FlowStep fc fc' [] [.wtStream id data fin]
  | raises (maximum : Nat) (hmax : maximum ≤ Varint.maxValue) (hlt : fc.recvMax < maximum) :
    FlowStep fc { fc with recvMax := maximum } [.wtMaxData maximum] []
  | grants (maximum : Nat) (hmax : maximum ≤ Varint.maxValue) (hlt : fc.sendMax < maximum) :
    FlowStep fc { fc with sendMax := maximum } [] [.wtMaxData maximum]
  | raisesStreams (maximum : Nat) (bidirectional : Bool) (hmax : maximum ≤ maxStreamsLimit)
    (hlt : fc.maxStreamsLocal bidirectional < maximum) :
    FlowStep fc (raiseLocal fc maximum bidirectional) [.wtMaxStreams maximum bidirectional] []
  | grantsStreams (maximum : Nat) (bidirectional : Bool) (hmax : maximum ≤ maxStreamsLimit)
    (hlt : fc.maxStreamsRemote bidirectional < maximum) :
    FlowStep fc (raiseRemote fc maximum bidirectional) [] [.wtMaxStreams maximum bidirectional]

/-- What a step does to the flow control and to the records of what was sent and received. -/
structure Flows (b b' : Book) (sent received : List Capsule) : Prop where
  step : FlowStep b.flowControl b'.flowControl sent received
  sent : b'.sent = sent ++ b.sent
  received : b'.received = received ++ b.received

/-- A step that leaves the flow control as it is. -/
theorem Flows.of_stays {sent received : List Capsule} (hflow : b'.flowControl = b.flowControl)
    (hsent : b'.sent = sent ++ b.sent) (hreceived : b'.received = received ++ b.received)
    (hnew : ∀ c ∈ sent, c.Unmetered) (hgot : ∀ c ∈ received, c.Unmetered) :
    Flows b b' sent received :=
  ⟨hflow ▸ .stays sent received hnew hgot, hsent, hreceived⟩

theorem unmetered_nil : ∀ c ∈ ([] : List Capsule), c.Unmetered :=
  fun _ h => absurd h List.not_mem_nil

theorem unmetered_one {c : Capsule} (hc : c.Unmetered) : ∀ c' ∈ [c], c'.Unmetered := by
  intro c' h
  obtain rfl := List.mem_singleton.1 h
  exact hc

theorem Move.flow (h : Move b b') : ∃ sent received, Flows b b' sent received := by
  have hsends : ∀ {c : Capsule} {b'}, c.Unmetered → b'.flowControl = b.flowControl →
      b'.sent = c :: b.sent → b'.received = b.received →
      ∃ sent received, Flows b b' sent received :=
    fun hc hflow hsent hreceived =>
      ⟨_, [], .of_stays hflow hsent hreceived (unmetered_one hc) unmetered_nil⟩
  have htakes : ∀ {c : Capsule} {b'}, c.Unmetered → b'.flowControl = b.flowControl →
      b'.sent = b.sent → b'.received = c :: b.received →
      ∃ sent received, Flows b b' sent received :=
    fun hc hflow hsent hreceived =>
      ⟨[], _, .of_stays hflow hsent hreceived unmetered_nil (unmetered_one hc)⟩
  have hquiet : ∀ {b'}, b'.flowControl = b.flowControl → b'.sent = b.sent →
      b'.received = b.received → ∃ sent received, Flows b b' sent received :=
    fun hflow hsent hreceived =>
      ⟨[], [], .of_stays hflow hsent hreceived unmetered_nil unmetered_nil⟩
  cases h with
  | openLocal bidirectional hroom =>
    refine ⟨[], [], ?_, ?_, ?_⟩
    · cases bidirectional with
      | true => exact .opens true hroom
      | false => exact .opens false hroom
    · cases bidirectional <;> rfl
    · cases bidirectional <;> rfl
  | sendData _ id data fin h =>
    obtain ⟨_, _, _, fc, hfc, hroom, rfl⟩ := SendsData.frame h
    exact ⟨_, [], .sends fc id data fin hroom hfc, rfl, rfl⟩
  | sendReset id errorCode s =>
    obtain ⟨_, _, _, h⟩ := Book.settle_frame
      (b.logSent (.wtResetStream id errorCode s.sendOffset)) id s.sendReset
    rw [Resets, h]
    exact @hsends (.wtResetStream id errorCode s.sendOffset) _ trivial rfl rfl rfl
  | takeReset id errorCode s =>
    obtain ⟨_, _, _, h⟩ := Book.settle_frame
      (b.logReceived (.wtResetStream id errorCode s.recvOffset)) id s.recvReset
    rw [h]
    exact @htakes (.wtResetStream id errorCode s.recvOffset) _ trivial rfl rfl rfl
  | takeStop id errorCode =>
    obtain ⟨_, _, h⟩ := b.recordStopSending_frame id
    rw [h]
    exact @htakes (.wtStopSending id errorCode) _ trivial rfl rfl rfl
  | read id s =>
    obtain ⟨_, _, _, h⟩ := b.settle_frame id s.markDataRead
    rw [h]
    exact hquiet rfl rfl rfl
  | sendStop id errorCode => exact @hsends (.wtStopSending id errorCode) _ trivial rfl rfl rfl
  | sendDatagram data => exact @hsends (.datagram data) _ trivial rfl rfl rfl
  | sendClose errorCode reason =>
    exact @hsends (closeCapsule errorCode reason) _ trivial rfl rfl rfl
  | sendDrain => exact @hsends .wtDrainSession _ trivial rfl rfl rfl
  | sendMaxData maximum hcan => exact ⟨_, [], .raises maximum hcan.1 hcan.2, rfl, rfl⟩
  | sendMaxStreamData id maximum =>
    exact @hsends (.wtMaxStreamData id maximum) _ trivial rfl rfl rfl
  | sendMaxStreams maximum bidirectional hmax hlt =>
    exact ⟨_, [], .raisesStreams maximum bidirectional hmax hlt, rfl, rfl⟩
  | takeData id data fin s s' fc hlive hpart hrecv hfc =>
    exact ⟨[], _, .takes fc id data fin hfc, rfl, rfl⟩
  | takeMaxData maximum hmax hlt => exact ⟨[], _, .grants maximum hmax hlt, rfl, rfl⟩
  | takeMaxStreamData id maximum | takeMaxStreamDataClosed id maximum
  | takeMaxStreamDataLost id maximum =>
    exact @htakes (.wtMaxStreamData id maximum) _ trivial rfl rfl rfl
  | takeMaxStreams maximum bidirectional hmax hlt =>
    exact ⟨[], _, .grantsStreams maximum bidirectional hmax hlt, rfl, rfl⟩
  | takePassive c hc =>
    refine @htakes c _ ?_ rfl rfl rfl
    cases c <;> first | exact hc | trivial
  | create | notify => exact hquiet rfl rfl rfl

theorem Drift.flow (h : Drift b b') : ∃ sent received, Flows b b' sent received := by
  obtain h | h := h
  · exact h.flow
  · cases h
    exact ⟨[], [], .of_stays rfl rfl rfl unmetered_nil unmetered_nil⟩

theorem consumeSend_ok {fc fc' : WtFlowControl} {size : Nat} (h : fc.consumeSend size = .ok fc') :
    saturatingAdd fc.sendOffset size ≤ fc.sendMax ∧
      fc' = { fc with sendOffset := saturatingAdd fc.sendOffset size } := by
  simp only [WtFlowControl.consumeSend] at h
  split at h
  · cases h
  · rename_i hle
    exact ⟨Nat.le_of_not_lt hle, (Except.ok.inj h).symm⟩

theorem consumeRecv_ok {fc fc' : WtFlowControl} {size : Nat} (h : fc.consumeRecv size = .ok fc') :
    saturatingAdd fc.recvOffset size ≤ fc.recvMax ∧
      fc' = { fc with recvOffset := saturatingAdd fc.recvOffset size } := by
  simp only [WtFlowControl.consumeRecv] at h
  split at h
  · cases h
  · rename_i hle
    exact ⟨Nat.le_of_not_lt hle, (Except.ok.inj h).symm⟩

/-- The counters keep to their limits. -/
structure Kept (fc : WtFlowControl) : Prop where
  send : fc.sendOffset ≤ fc.sendMax
  recv : fc.recvOffset ≤ fc.recvMax
  streams : ∀ bidirectional, fc.openedStreams bidirectional ≤ fc.maxStreamsRemote bidirectional

theorem FlowStep.kept {fc fc' : WtFlowControl} {sent received : List Capsule}
    (h : FlowStep fc fc' sent received) (hkept : Kept fc) : Kept fc' := by
  obtain ⟨hsend, hrecv, hstreams⟩ := hkept
  cases h with
  | stays => exact ⟨hsend, hrecv, hstreams⟩
  | opens bidirectional hroom =>
    refine ⟨?_, ?_, fun bidirectional' => ?_⟩
    · cases bidirectional <;> exact hsend
    · cases bidirectional <;> exact hrecv
    · have hold := hstreams bidirectional'
      cases bidirectional <;> cases bidirectional' <;>
        simp only [WtFlowControl.openedStream, WtFlowControl.openedStreams,
          WtFlowControl.maxStreamsRemote, Bool.false_eq_true, if_true, if_false] at hroom hold ⊢ <;>
        omega
  | sends _ _ _ _ _ h =>
    obtain ⟨hle, rfl⟩ := consumeSend_ok h
    exact ⟨hle, hrecv, hstreams⟩
  | takes _ _ _ _ h =>
    obtain ⟨hle, rfl⟩ := consumeRecv_ok h
    exact ⟨hsend, hle, hstreams⟩
  | raises maximum hmax hlt => exact ⟨hsend, Nat.le_of_lt (Nat.lt_of_le_of_lt hrecv hlt), hstreams⟩
  | grants maximum hmax hlt => exact ⟨Nat.le_of_lt (Nat.lt_of_le_of_lt hsend hlt), hrecv, hstreams⟩
  | raisesStreams maximum bidirectional hmax hlt =>
    cases bidirectional <;> exact ⟨hsend, hrecv, hstreams⟩
  | grantsStreams maximum bidirectional hmax hlt =>
    refine ⟨?_, ?_, fun bidirectional' => ?_⟩
    · cases bidirectional <;> exact hsend
    · cases bidirectional <;> exact hrecv
    · have hold := hstreams bidirectional'
      cases bidirectional <;> cases bidirectional' <;>
        simp only [raiseRemote, WtFlowControl.openedStreams, WtFlowControl.maxStreamsRemote,
          Bool.false_eq_true, if_true, if_false] at hlt hold ⊢ <;>
        omega

theorem Drift.kept (h : Drift b b') (hkept : Kept b.flowControl) : Kept b'.flowControl := by
  obtain ⟨_, _, hflows⟩ := h.flow
  exact hflows.step.kept hkept

end Steps

/-! ## Runs -/

section Runs

variable {s s' : WtSession}

theorem move_le_drift : Move ≤ Drift := fun _ _ h => Or.inl h

theorem Acts.drifts (h : Acts s s') : Relation.ReflTransGen Drift s.toBook s'.toBook :=
  Relation.ReflTransGen.mono move_le_drift _ _ h.moves

theorem Drifts.drifts (h : Drifts s s') : Relation.ReflTransGen Drift s.toBook s'.toBook := by
  cases h with
  | acts _ h => exact h.drifts
  | stray s₁ b h hstray => exact h.drifts.tail (.inr hstray)

theorem handleCapsule_drifts (s : WtSession) (c : Capsule) :
    Ensures (handleCapsule c) s fun _ s' => Relation.ReflTransGen Drift s.toBook s'.toBook := by
  refine ensures_mono (handleCapsule_moves s c) fun r s' h => ?_
  obtain ⟨-, -, rfl⟩ | ⟨-, ⟨-, hdrifts⟩ | ⟨-, haccepts⟩⟩ := h
  · exact .refl
  · exact hdrifts.drifts
  · exact haccepts.acts.drifts

theorem Processed.drifts {cs : List Capsule} {r : WtResult Unit} (h : Processed s cs r s') :
    Relation.ReflTransGen Drift s.toBook s'.toBook := by
  induction h with
  | waits | garbled => exact .refl
  | rejected s s' c d e _ hfails =>
    have hdrifts := handleCapsule_drifts { s with capsuleDecoder := d } c
    unfold Ensures at hdrifts
    rw [hfails] at hdrifts
    exact hdrifts
  | handled s s₁ s' c d cs r _ hhandled _ ih =>
    have hdrifts := handleCapsule_drifts { s with capsuleDecoder := d } c
    unfold Ensures at hdrifts
    rw [hhandled] at hdrifts
    exact hdrifts.trans ih

/-- Reading an event reads the end of its stream, or moves nothing. -/
theorem finishReading_drifts (b : Book) (id : Nat) :
    Relation.ReflTransGen Drift b (finishReading b id) := by
  unfold finishReading
  cases hlive : b.stream? id with
  | none =>
    have hsame : b.removeIfClosed id = b := by simp only [Book.removeIfClosed, hlive]
    simp only [hsame]
    exact .refl
  | some stream => exact .single (.inl (.read b id stream hlive))

theorem pollEvent_drifts (s : WtSession) :
    Ensures pollEvent s fun _ s' => Relation.ReflTransGen Drift s.toBook s'.toBook := by
  simp only [pollEvent, ensures_bind, ensures_get]
  cases s.events with
  | nil => exact .refl
  | cons e events =>
    simp only [ensures_bind, ensures_modify]
    split
    · exact finishReading_drifts _ _
    · exact .refl

/-- Every public operation drifts, while the session keeps within the limit of its peer. -/
theorem exec_drifts (hsend : s.flowControl.sendOffset ≤ s.flowControl.sendMax) (call : WtCall) :
    Relation.ReflTransGen Drift s.toBook (call.exec s).2.toBook := by
  have hatomic : call.isSend = true →
      Ensures call.exec s fun _ s' => Relation.ReflTransGen Drift s.toBook s'.toBook := by
    intro h
    refine ensures_mono (send_atomic hsend h) fun r s' h => ?_
    obtain ⟨e, rfl, rfl⟩ | ⟨a, rfl, hacts⟩ := h
    · exact .refl
    · exact hacts.drifts
  have hall : Ensures call.exec s fun _ s' =>
      Relation.ReflTransGen Drift s.toBook s'.toBook := by
    cases call with
    | initiate =>
      refine ensures_return.2 (?_ : Ensures WtSession.initiate s _)
      simp only [WtSession.initiate, ensures_bind, ensures_get, ensures_require, ensures_setState]
      exact ⟨fun _ => .refl, fun _ => .refl⟩
    | feed data =>
      refine ensures_return.2 (?_ : Ensures (WtSession.feed data) s _)
      simp only [WtSession.feed, ensures_bind, ensures_get, ensures_lift]
      cases s.capsuleDecoder.feed data with
      | error e => exact .refl
      | ok d => exact .refl
    | process =>
      refine ensures_return.2 (ensures_mono (process_spec s) fun r s' h => ?_)
      obtain ⟨cs, h⟩ := h
      exact h.drifts
    | pollOutput =>
      refine ensures_return.2 (?_ : Ensures WtSession.pollOutput s _)
      simp only [WtSession.pollOutput, ensures_bind, ensures_get, ensures_ite, ensures_pure]
      exact ⟨fun _ => .refl, fun _ => .refl⟩
    | pollEvent => exact ensures_return.2 (pollEvent_drifts s)
    | openBidiStream | openUniStream | sendStreamData _ _ _ | resetStream _ _ | stopSending _ _
    | sendDatagram _ | close _ _ | sendMaxData _ | sendMaxStreamData _ _ | sendMaxStreams _ _
    | growRecvWindow _ | growStreamRecvWindow _ _ | growMaxStreams _ _ | drain =>
      exact hatomic rfl
  exact hall

theorem kept_new (role : Role) (config peerConfig : WtConfig) :
    Kept (Book.new role config peerConfig).flowControl :=
  ⟨Nat.zero_le _, Nat.zero_le _, fun bidirectional => by cases bidirectional <;> exact Nat.zero_le _⟩

theorem drifts_kept {b b' : Book} (h : Relation.ReflTransGen Drift b b') (hkept : Kept b.flowControl) :
    Kept b'.flowControl := by
  induction h with
  | refl => exact hkept
  | tail _ hstep ih => exact hstep.kept ih

/-- The book of a session drifts from a new one. -/
theorem WtRun.drifts {role : Role} {config peerConfig : WtConfig}
    (run : WtRun role config peerConfig s) :
    Relation.ReflTransGen Drift (Book.new role config peerConfig) s.toBook := by
  induction run with
  | init => exact .refl
  | call run c ih => exact ih.trans (exec_drifts (drifts_kept ih (kept_new ..)).send c)

theorem WtRun.kept {role : Role} {config peerConfig : WtConfig}
    (run : WtRun role config peerConfig s) : Kept s.flowControl :=
  drifts_kept run.drifts (kept_new ..)

/-- The states that a session reaches, those between the capsules of `process` included. -/
inductive WtReach (role : Role) (config peerConfig : WtConfig) : WtSession → Prop
  | run {s : WtSession} (run : WtRun role config peerConfig s) : WtReach role config peerConfig s
  | capsule {s : WtSession} (reach : WtReach role config peerConfig s) (c : Capsule)
    (d : CapsuleDecoder) (h : s.capsuleDecoder.decode = .ok (some (c, d))) :
    WtReach role config peerConfig (handleCapsule c { s with capsuleDecoder := d }).2

theorem WtReach.drifts {role : Role} {config peerConfig : WtConfig}
    (reach : WtReach role config peerConfig s) :
    Relation.ReflTransGen Drift (Book.new role config peerConfig) s.toBook := by
  induction reach with
  | run run => exact run.drifts
  | @capsule s reach c d h ih =>
    exact ih.trans (handleCapsule_drifts { s with capsuleDecoder := d } c)

/-- What drifting keeps, and a new book has, every book that drifted from it has. -/
theorem drifts_keeps {role : Role} {config peerConfig : WtConfig} {P : Book → Prop} {b : Book}
    (h : Relation.ReflTransGen Drift (Book.new role config peerConfig) b)
    (hnew : P (Book.new role config peerConfig))
    (hstep : ∀ b b', SameSession (Book.new role config peerConfig) b → Kept b.flowControl →
      P b → Drift b b' → P b') : SameSession (Book.new role config peerConfig) b ∧ P b := by
  induction h with
  | refl => exact ⟨⟨rfl, rfl, rfl⟩, hnew⟩
  | tail h hdrift ih =>
    obtain ⟨⟨hrole, hconfig, hpeer⟩, hP⟩ := ih
    have hsame := hdrift.sameSession
    refine ⟨⟨hsame.role.trans hrole, hsame.config.trans hconfig,
      hsame.peerConfig.trans hpeer⟩, ?_⟩
    exact hstep _ _ ⟨hrole, hconfig, hpeer⟩ (drifts_kept h (kept_new ..)) hP hdrift

theorem WtReach.keeps {role : Role} {config peerConfig : WtConfig} {P : Book → Prop}
    (reach : WtReach role config peerConfig s) (hnew : P (Book.new role config peerConfig))
    (hstep : ∀ b b', SameSession (Book.new role config peerConfig) b → Kept b.flowControl →
      P b → Drift b b' → P b') : P s.toBook :=
  (drifts_keeps reach.drifts hnew hstep).2

/-! ## What is queued -/

/-- What is queued is the end of what was reported and of what was sent. -/
structure Queued (s : WtSession) : Prop where
  events : ∃ polled, s.notified.reverse = polled ++ s.events
  output : ∃ polled, s.sent.reverse.flatMap Capsule.encode = polled ++ s.outputBuffer

/-- What a step reports and what it sends is added to what is queued. -/
structure Extends (s s' : WtSession) : Prop where
  events : ∃ new, s'.notified = new ++ s.notified ∧ s'.events = s.events ++ new.reverse
  output : ∃ new, s'.sent = new ++ s.sent ∧
    s'.outputBuffer = s.outputBuffer ++ new.reverse.flatMap Capsule.encode

theorem Extends.refl (s : WtSession) : Extends s s := ⟨⟨[], by simp⟩, ⟨[], by simp⟩⟩

theorem Extends.trans {s'' : WtSession} (h : Extends s s') (h' : Extends s' s'') :
    Extends s s'' := by
  obtain ⟨⟨new, hnotified, hevents⟩, out, hsent, houtput⟩ := h
  obtain ⟨⟨new', hnotified', hevents'⟩, out', hsent', houtput'⟩ := h'
  refine ⟨⟨new' ++ new, ?_, ?_⟩, out' ++ out, ?_, ?_⟩
  · rw [hnotified', hnotified, List.append_assoc]
  · rw [hevents', hevents, List.reverse_append, List.append_assoc]
  · rw [hsent', hsent, List.append_assoc]
  · rw [houtput', houtput, List.reverse_append, List.flatMap_append, List.append_assoc]

theorem Acts.extends (h : Acts s s') : Extends s s' := ⟨h.events, h.output⟩

theorem Extends.queued (h : Extends s s') (hqueued : Queued s) : Queued s' := by
  obtain ⟨⟨polled, hevents⟩, polled', houtput⟩ := hqueued
  obtain ⟨new, hnotified, hevents'⟩ := h.events
  obtain ⟨new', hsent, houtput'⟩ := h.output
  refine ⟨⟨polled, ?_⟩, polled', ?_⟩
  · rw [hnotified, hevents', List.reverse_append, hevents, List.append_assoc]
  · rw [hsent, houtput', List.reverse_append, List.flatMap_append, houtput, List.append_assoc]

theorem handleCapsule_extends (s : WtSession) (c : Capsule) :
    Ensures (handleCapsule c) s fun _ s' => Extends s s' := by
  refine ensures_mono (handleCapsule_moves s c) fun r s' h => ?_
  obtain ⟨-, -, rfl⟩ | ⟨-, ⟨-, hdrifts⟩ | ⟨-, haccepts⟩⟩ := h
  · exact .refl _
  · cases hdrifts with
    | acts _ h => exact h.extends
    | stray s₁ b h hstray =>
      obtain ⟨hevents, houtput⟩ := h.extends
      cases hstray
      exact ⟨hevents, houtput⟩
  · exact haccepts.acts.extends

theorem Processed.extends {cs : List Capsule} {r : WtResult Unit} (h : Processed s cs r s') :
    Extends s s' := by
  induction h with
  | waits | garbled => exact .refl _
  | rejected s s' c d e _ hfails =>
    have h := handleCapsule_extends { s with capsuleDecoder := d } c
    unfold Ensures at h
    rw [hfails] at h
    exact ⟨h.events, h.output⟩
  | handled s s₁ s' c d cs r _ hhandled _ ih =>
    have h := handleCapsule_extends { s with capsuleDecoder := d } c
    unfold Ensures at h
    rw [hhandled] at h
    exact Extends.trans ⟨h.events, h.output⟩ ih

theorem finishReading_logs (b : Book) (id : Nat) :
    (finishReading b id).notified = b.notified ∧ (finishReading b id).sent = b.sent := by
  unfold finishReading
  cases hlive : b.stream? id with
  | none =>
    have hsame : b.removeIfClosed id = b := by simp only [Book.removeIfClosed, hlive]
    simp only [hsame, and_self]
  | some stream => exact ⟨Book.settle_notified, Book.settle_sent⟩

theorem pollEvent_queued (s : WtSession) (hqueued : Queued s) :
    Ensures pollEvent s fun _ s' => Queued s' := by
  obtain ⟨⟨polled, hevents⟩, houtput⟩ := hqueued
  simp only [pollEvent, ensures_bind, ensures_get]
  cases hqueue : s.events with
  | nil => exact ⟨⟨polled, hevents⟩, houtput⟩
  | cons e events =>
    have hpolled : s.notified.reverse = (polled ++ [e]) ++ events := by
      rw [hevents, hqueue, List.append_assoc]
      rfl
    simp only [ensures_bind, ensures_modify]
    split
    · rename_i id data
      simp only [ensures_bind, ensures_updateBook, ensures_pure]
      obtain ⟨hnotified, hsent⟩ := finishReading_logs s.toBook id
      refine ⟨⟨polled ++ [.streamData id data true], ?_⟩, ?_⟩
      · simp only [hnotified]
        exact hpolled
      · simp only [hsent]
        exact houtput
    · exact ⟨⟨polled ++ [e], hpolled⟩, houtput⟩

theorem exec_queued (hsend : s.flowControl.sendOffset ≤ s.flowControl.sendMax) (call : WtCall)
    (hqueued : Queued s) : Queued (call.exec s).2 := by
  have hatomic : call.isSend = true → Ensures call.exec s fun _ s' => Queued s' := by
    intro h
    refine ensures_mono (send_atomic hsend h) fun r s' h => ?_
    obtain ⟨e, rfl, rfl⟩ | ⟨a, rfl, hacts⟩ := h
    · exact hqueued
    · exact hacts.extends.queued hqueued
  have hall : Ensures call.exec s fun _ s' => Queued s' := by
    cases call with
    | initiate =>
      refine ensures_return.2 (?_ : Ensures WtSession.initiate s _)
      simp only [WtSession.initiate, ensures_bind, ensures_get, ensures_require, ensures_setState]
      exact ⟨fun _ => ⟨hqueued.events, hqueued.output⟩, fun _ => hqueued⟩
    | feed data =>
      refine ensures_return.2 (?_ : Ensures (WtSession.feed data) s _)
      simp only [WtSession.feed, ensures_bind, ensures_get, ensures_lift]
      cases s.capsuleDecoder.feed data with
      | error e => exact hqueued
      | ok d => exact ⟨hqueued.events, hqueued.output⟩
    | process =>
      refine ensures_return.2 (ensures_mono (process_spec s) fun r s' h => ?_)
      obtain ⟨cs, h⟩ := h
      exact h.extends.queued hqueued
    | pollOutput =>
      refine ensures_return.2 (?_ : Ensures WtSession.pollOutput s _)
      simp only [WtSession.pollOutput, ensures_bind, ensures_get, ensures_ite, ensures_pure]
      exact ⟨fun _ => hqueued, fun _ => ⟨hqueued.events, ⟨_, (List.append_nil _).symm⟩⟩⟩
    | pollEvent => exact ensures_return.2 (pollEvent_queued s hqueued)
    | openBidiStream | openUniStream | sendStreamData _ _ _ | resetStream _ _ | stopSending _ _
    | sendDatagram _ | close _ _ | sendMaxData _ | sendMaxStreamData _ _ | sendMaxStreams _ _
    | growRecvWindow _ | growStreamRecvWindow _ _ | growMaxStreams _ _ | drain =>
      exact hatomic rfl
  exact hall

theorem WtRun.queued {role : Role} {config peerConfig : WtConfig}
    (run : WtRun role config peerConfig s) : Queued s := by
  induction run with
  | init => exact ⟨⟨[], rfl⟩, ⟨[], rfl⟩⟩
  | call run c ih => exact exec_queued run.kept.send c ih

end Runs

end Http2.WebTransport
