import Http2.WebTransport.Reach

/-! The numbers of a session stay in the range of a varint, and so does what it sends. -/
namespace Http2.WebTransport

open Lib Lib.Prog WtSession

/-- The limits are such that SETTINGS and WebTransport-Init can carry them. -/
structure WtConfig.Bounded (c : WtConfig) : Prop where
  data : c.initialMaxData.toNat ≤ Varint.maxValue
  bidiLocal : c.initialMaxStreamDataBidiLocal.toNat ≤ Varint.maxValue
  bidiRemote : c.initialMaxStreamDataBidiRemote.toNat ≤ Varint.maxValue
  uni : c.initialMaxStreamDataUni.toNat ≤ Varint.maxValue
  streamsBidi : c.initialMaxStreamsBidi.toNat ≤ maxStreamsLimit
  streamsUni : c.initialMaxStreamsUni.toNat ≤ maxStreamsLimit

/-- The application handed over no more than the length of a capsule can say. -/
def Capsule.PayloadFits : Capsule → Prop
  | .datagram data => data.length ≤ Varint.maxValue
  | .wtStream id data _ => Varint.encodedLen id + data.length ≤ Varint.maxValue
  | _ => True

/-! ## Capsules -/

section Encoding

open Capsule

theorem le_maxValue_of_le {n : Nat} (h : n ≤ 65536) : n ≤ Varint.maxValue :=
  Nat.le_trans h (by decide)

theorem encodedLen_sum_le (a b c : Nat) :
    Varint.encodedLen a + Varint.encodedLen b + Varint.encodedLen c ≤ Varint.maxValue := by
  have ha := Varint.encodedLen_le a
  have hb := Varint.encodedLen_le b
  have hc := Varint.encodedLen_le c
  exact le_maxValue_of_le (by omega)

theorem encodable_wtResetStream {id code size : Nat} (hid : id ≤ Varint.maxValue)
    (hcode : code ≤ maxApplicationErrorCode) (hsize : size ≤ Varint.maxValue) :
    (wtResetStream id code size).Encodable := by
  have hcode' : code ≤ Varint.maxValue := Nat.le_trans hcode (by decide)
  intro value hvalue
  simp only [parts, header, List.cons_append, List.nil_append, List.mem_cons, Part.varint.injEq,
    List.not_mem_nil, or_false] at hvalue
  obtain rfl | rfl | rfl | rfl | rfl := hvalue
  · decide
  · exact encodedLen_sum_le ..
  · exact hid
  · exact hcode'
  · exact hsize

/-- A capsule of two numbers. -/
theorem encodable_pair {c : Capsule} {capsuleType a b : Nat}
    (hparts : c.parts = header capsuleType (Varint.encodedLen a + Varint.encodedLen b) ++
      [.varint a, .varint b])
    (htype : capsuleType ≤ Varint.maxValue) (ha : a ≤ Varint.maxValue) (hb : b ≤ Varint.maxValue) :
    c.Encodable := by
  intro value hvalue
  simp only [hparts, header, List.cons_append, List.nil_append, List.mem_cons, Part.varint.injEq,
    List.not_mem_nil, or_false] at hvalue
  obtain rfl | rfl | rfl | rfl := hvalue
  · exact htype
  · exact Nat.le_trans (Nat.le_add_right ..) (encodedLen_sum_le a b 0)
  · exact ha
  · exact hb

/-- A capsule of one number. -/
theorem encodable_single {c : Capsule} {capsuleType a : Nat}
    (hparts : c.parts = header capsuleType (Varint.encodedLen a) ++ [.varint a])
    (htype : capsuleType ≤ Varint.maxValue) (ha : a ≤ Varint.maxValue) : c.Encodable := by
  intro value hvalue
  simp only [hparts, header, List.cons_append, List.nil_append, List.mem_cons, Part.varint.injEq,
    List.not_mem_nil, or_false] at hvalue
  obtain rfl | rfl | rfl := hvalue
  · exact htype
  · exact le_maxValue_of_le (Nat.le_trans (Varint.encodedLen_le a) (by decide))
  · exact ha

theorem encodable_wtStream {id : Nat} {data : Bytes} {fin : Bool} (hid : id ≤ Varint.maxValue)
    (hfits : (wtStream id data fin).PayloadFits) : (wtStream id data fin).Encodable := by
  intro value hvalue
  simp only [parts, header, List.cons_append, List.nil_append, List.mem_cons, Part.varint.injEq,
    reduceCtorEq, List.not_mem_nil, or_false] at hvalue
  obtain rfl | rfl | rfl := hvalue
  · cases fin <;> decide
  · exact hfits
  · exact hid

theorem encodable_datagram {data : Bytes} (hfits : (datagram data).PayloadFits) :
    (datagram data).Encodable := by
  intro value hvalue
  simp only [parts, header, List.cons_append, List.nil_append, List.mem_cons, Part.varint.injEq,
    reduceCtorEq, List.not_mem_nil, or_false] at hvalue
  obtain rfl | rfl := hvalue
  · decide
  · exact hfits

theorem utf8_of_fromUtf8 {bytes : Bytes} {s : String} (h : fromUtf8 bytes = some s) :
    utf8 s = bytes := by
  simp only [fromUtf8, String.fromUTF8?] at h
  split at h
  · obtain rfl := Option.some.inj h
    rfl
  · cases h

theorem charBoundary_le (bytes : Bytes) (n : Nat) : charBoundary bytes n ≤ n := by
  induction n with
  | zero => exact le_rfl
  | succ n ih =>
    simp only [charBoundary]
    split
    · exact Nat.le_succ_of_le ih
    · exact le_rfl

/-- What `close` sends is cut to the length that the peer accepts. -/
theorem closeReason_length (reason : String) : (utf8 (closeReason reason)).length ≤ maxCloseReasonLen := by
  simp only [closeReason]
  by_cases hlong : (utf8 reason).length > maxCloseReasonLen
  · rw [if_pos hlong]
    cases hcut : fromUtf8 ((utf8 reason).take (charBoundary (utf8 reason) maxCloseReasonLen)) with
    | none => exact Nat.zero_le _
    | some s =>
      rw [Option.getD_some, utf8_of_fromUtf8 hcut, List.length_take]
      exact Nat.le_trans (Nat.min_le_left ..) (charBoundary_le ..)
  · rw [if_neg hlong]
    exact Nat.le_of_not_lt hlong

theorem encodable_closeCapsule (errorCode : UInt32) (reason : String) :
    (closeCapsule errorCode reason).Encodable := by
  have hlen := closeReason_length reason
  intro value hvalue
  simp only [closeCapsule, parts, header, List.cons_append, List.nil_append, List.mem_cons,
    Part.varint.injEq, reduceCtorEq, List.not_mem_nil, or_false] at hvalue
  obtain rfl | rfl := hvalue
  · decide
  · refine le_maxValue_of_le ?_
    simp only [maxCloseReasonLen] at hlen
    omega

theorem encodable_wtDrainSession : wtDrainSession.Encodable := by
  intro value hvalue
  simp only [parts, header, List.mem_cons, Part.varint.injEq, List.not_mem_nil, or_false] at hvalue
  obtain rfl | rfl := hvalue <;> decide

end Encoding

/-! ## The streams of a book -/

/-- Every stream has the property, and so has every stream that a step makes. -/
def Book.Streams (P : Nat → WtStream → Prop) (b : Book) : Prop :=
  ∀ id s, b.stream? id = some s → P id s

section Streams

variable {P : Nat → WtStream → Prop} {b : Book} {id : Nat} {s : WtStream}

theorem Book.Streams.putStream (h : b.Streams P) (hs : P id s) : (b.putStream id s).Streams P := by
  intro id' s' hlive
  simp only [Book.stream?, Book.putStream, lookup_insert_ite] at hlive
  by_cases heq : id' = id
  · rw [if_pos heq] at hlive
    obtain rfl := Option.some.inj hlive
    exact heq ▸ hs
  · rw [if_neg heq] at hlive
    exact h id' s' hlive

theorem Book.Streams.settle (h : b.Streams P) (hs : P id s) : (b.settle id s).Streams P := by
  have hput := h.putStream hs
  unfold Book.settle Book.removeIfClosed
  split
  · exact hput
  · split
    · intro id' s' hlive
      simp only [Book.stream?, lookup_erase_ite] at hlive
      split at hlive
      · cases hlive
      · exact hput id' s' hlive
    · exact hput

theorem Book.Streams.recordStopSending (h : b.Streams P)
    (hs : ∀ s, P id s → P id s.setStopSendingReceived) : (recordStopSending b id).Streams P := by
  unfold WtSession.recordStopSending
  cases hlive : b.stream? id with
  | none => exact h
  | some s => exact h.putStream (hs s (h id s hlive))

end Streams

/-! ## The invariant -/

/-- The next identifier of our own for streams of one direction. -/
def Book.nextStreamId (b : Book) (bidirectional : Bool) : Nat :=
  if bidirectional then b.nextBidiStreamId else b.nextUniStreamId

/-- Our own identifiers are given out one after the other. -/
def Book.Numbered (b : Book) : Prop :=
  ∀ bidirectional, b.nextStreamId bidirectional =
    StreamId.first (b.role == .client) bidirectional + 4 * b.flowControl.openedStreams bidirectional

/-- The numbers of a stream fit a varint. -/
def Fits (id : Nat) (s : WtStream) : Prop :=
  id ≤ Varint.maxValue ∧ s.sendOffset ≤ s.sendMax ∧ s.sendMax ≤ Varint.maxValue

/-- The limits on streams are in range. -/
def StreamLimits (fc : WtFlowControl) : Prop :=
  ∀ bidirectional, fc.maxStreamsLocal bidirectional ≤ maxStreamsLimit ∧
    fc.maxStreamsRemote bidirectional ≤ maxStreamsLimit

/-- All numbers of a book are in range, and what went out could be encoded. -/
structure Book.InRange (b : Book) : Prop where
  numbered : b.Numbered
  streams : b.Streams Fits
  limits : StreamLimits b.flowControl
  sent : ∀ c ∈ b.sent, c.PayloadFits → c.Encodable

section Invariant

variable {b b' : Book} {id : Nat}

theorem Move.numbered (h : Move b b') (hnumbered : b.Numbered) : b'.Numbered := by
  cases h with
  | openLocal opens hroom =>
    intro bidirectional
    have hold := hnumbered bidirectional
    cases opens <;> cases bidirectional <;>
      simp_all [Book.openLocal, Book.nextStreamId, Book.putStream, StreamId.next,
        WtFlowControl.openedStream, WtFlowControl.openedStreams] <;> omega
  | sendData _ id data fin h =>
    obtain ⟨_, _, _, fc, hfc, -, rfl⟩ := SendsData.frame h
    obtain ⟨-, rfl⟩ := consumeSend_ok hfc
    exact hnumbered
  | sendReset id errorCode s =>
    obtain ⟨_, _, _, h⟩ := Book.settle_frame
      (b.logSent (.wtResetStream id errorCode s.sendOffset)) id s.sendReset
    rw [Resets, h]
    exact hnumbered
  | takeReset id errorCode s =>
    obtain ⟨_, _, _, h⟩ := Book.settle_frame
      (b.logReceived (.wtResetStream id errorCode s.recvOffset)) id s.recvReset
    rw [h]
    exact hnumbered
  | takeStop id errorCode =>
    obtain ⟨_, _, h⟩ := b.recordStopSending_frame id
    rw [h]
    exact hnumbered
  | read id s =>
    obtain ⟨_, _, _, h⟩ := b.settle_frame id s.markDataRead
    rw [h]
    exact hnumbered
  | takeData id data fin s s' fc hlive hpart hrecv hfc =>
    obtain ⟨-, rfl⟩ := consumeRecv_ok hfc
    exact hnumbered
  | sendMaxStreams maximum raised => cases raised <;> exact hnumbered
  | takeMaxStreams maximum raised => cases raised <;> exact hnumbered
  | sendStop | sendDatagram | sendClose | sendDrain | sendMaxData | sendMaxStreamData | create
  | takeMaxData | takeMaxStreamData | takeMaxStreamDataClosed | takeMaxStreamDataLost | takePassive
  | notify => exact hnumbered

theorem Drift.numbered (h : Drift b b') (hnumbered : b.Numbered) : b'.Numbered := by
  obtain h | h := h
  · exact h.numbered hnumbered
  · cases h
    exact hnumbered

theorem FlowStep.streamLimits {fc fc' : WtFlowControl} {sent received : List Capsule}
    (h : FlowStep fc fc' sent received) (hlimits : StreamLimits fc) : StreamLimits fc' := by
  cases h with
  | stays => exact hlimits
  | opens bidirectional => cases bidirectional <;> exact hlimits
  | sends _ _ _ _ _ h =>
    obtain ⟨-, rfl⟩ := consumeSend_ok h
    exact hlimits
  | takes _ _ _ _ h =>
    obtain ⟨-, rfl⟩ := consumeRecv_ok h
    exact hlimits
  | raises | grants => exact hlimits
  | raisesStreams maximum bidirectional hmax =>
    intro bidirectional'
    have hold := hlimits bidirectional'
    cases bidirectional <;> cases bidirectional' <;>
      first | exact hold | exact ⟨hmax, hold.2⟩
  | grantsStreams maximum bidirectional hmax =>
    intro bidirectional'
    have hold := hlimits bidirectional'
    cases bidirectional <;> cases bidirectional' <;>
      first | exact hold | exact ⟨hold.1, hmax⟩

/-- Our own next identifier, as long as it may be given out. -/
theorem nextStreamId_le {bidirectional : Bool} (hnumbered : b.Numbered)
    (hlimits : StreamLimits b.flowControl)
    (hroom : b.flowControl.openedStreams bidirectional <
      b.flowControl.maxStreamsRemote bidirectional) :
    b.nextStreamId bidirectional ≤ Varint.maxValue := by
  have hfirst : StreamId.first (b.role == .client) bidirectional ≤ 3 := by
    cases b.role <;> cases bidirectional <;> decide
  have hlimit := (hlimits bidirectional).2
  rw [hnumbered bidirectional]
  simp only [maxStreamsLimit] at hlimit
  simp only [Varint.maxValue]
  omega

/-- An identifier that is accepted is below a limit in range. -/
theorem accepted_le {fc : WtFlowControl} (hlimits : StreamLimits fc)
    (haccept : fc.canAcceptStream id = true) : id ≤ Varint.maxValue := by
  simp only [WtFlowControl.canAcceptStream, StreamId.and_three, decide_eq_true_eq,
    saturatingAdd, saturatingMul] at haccept
  have hlt : id % 4 < 4 := Nat.mod_lt _ (by decide)
  have hlimit : (if id &&& 0x02 == 0 then fc.maxStreamsBidiLocal else fc.maxStreamsUniLocal)
      ≤ maxStreamsLimit := by
    split
    · exact (hlimits true).1
    · exact (hlimits false).1
  simp only [maxStreamsLimit] at hlimit
  simp only [Varint.maxValue]
  omega

theorem Move.streamsFit (h : Move b b') (hpeer : b.peerConfig.Bounded) (hin : b.InRange) :
    b'.Streams Fits := by
  have hstreams := hin.streams
  cases h with
  | openLocal bidirectional hroom =>
    have hid := @nextStreamId_le b bidirectional hin.numbered hin.limits
      (by cases bidirectional <;> exact hroom)
    cases bidirectional with
    | true => exact hstreams.putStream ⟨hid, Nat.zero_le _, hpeer.bidiRemote⟩
    | false => exact hstreams.putStream ⟨hid, Nat.zero_le _, hpeer.uni⟩
  | sendData _ id data fin h =>
    obtain ⟨s, s', fc, hlive, -, hsend, -, -, rfl⟩ := h
    obtain ⟨-, hle, rfl⟩ := WtStream.sendData_eq_ok hsend
    obtain ⟨hid, -, hmax⟩ := hstreams id s hlive
    exact Book.Streams.settle (b := (b.setFlow fc).logSent (.wtStream id data fin)) hstreams
      ⟨hid, hle, hmax⟩
  | sendReset id errorCode s hcode hlive =>
    exact Book.Streams.settle (b := b.logSent (.wtResetStream id errorCode s.sendOffset)) hstreams
      (hstreams id s hlive)
  | sendStop id errorCode s hcode hlive => exact hstreams.putStream (hstreams id s hlive)
  | sendMaxStreamData id maximum s hmax hlive => exact hstreams.putStream (hstreams id s hlive)
  | create id hpeer' haccept =>
    refine hstreams.putStream ⟨accepted_le hin.limits haccept, Nat.zero_le _, ?_⟩
    simp only [Book.peerStream, WtStream.new, Book.initialSendMaxForPeerStream]
    split
    · exact hpeer.bidiLocal
    · exact hpeer.uni
  | takeData id data fin s s' fc hlive hpart hrecv =>
    obtain ⟨-, -, rfl⟩ := WtStream.recvData_eq_ok hrecv
    have hfits : Fits id (noteData { s with
        recvOffset := saturatingAdd s.recvOffset data.length
        recvState := if fin then .dataRecvd else s.recvState } data) := by
      unfold noteData
      split <;> exact hstreams id s hlive
    exact hstreams.putStream hfits
  | takeReset id errorCode s hlive =>
    exact Book.Streams.settle (b := b.logReceived (.wtResetStream id errorCode s.recvOffset))
      hstreams (hstreams id s hlive)
  | takeStop id errorCode => exact hstreams.recordStopSending fun s h => h
  | takeMaxStreamData id maximum s hlive hsender hstop hmax hlt =>
    obtain ⟨hid, hle, -⟩ := hstreams id s hlive
    exact hstreams.putStream ⟨hid, Nat.le_of_lt (Nat.lt_of_le_of_lt hle hlt), hmax⟩
  | read id s hlive =>
    refine hstreams.settle ?_
    unfold WtStream.markDataRead
    split <;> exact hstreams id s hlive
  | sendDatagram | sendClose | sendDrain | sendMaxData | sendMaxStreams | takeMaxData
  | takeMaxStreamDataClosed | takeMaxStreamDataLost | takeMaxStreams | takePassive | notify =>
    exact hstreams

/-- What goes out can be encoded. -/
theorem Move.sentEncodable (h : Move b b') (hin : b.InRange) :
    ∀ c ∈ b'.sent, c.PayloadFits → c.Encodable := by
  have hsent := hin.sent
  -- the capsules before and one more
  have hcons : ∀ {c : Capsule}, (c.PayloadFits → c.Encodable) →
      ∀ c' ∈ c :: b.sent, c'.PayloadFits → c'.Encodable := by
    intro c hc c' hmem
    obtain rfl | hmem := List.mem_cons.1 hmem
    · exact hc
    · exact hsent c' hmem
  have htype : ∀ bidirectional, (if bidirectional = true then CapsuleType.wtMaxStreamsBidi
      else CapsuleType.wtMaxStreamsUni) ≤ Varint.maxValue := by decide
  cases h with
  | openLocal opens =>
    obtain ⟨_, _, _, _, _, h⟩ := b.openLocal_frame opens
    rw [h]
    exact hsent
  | sendData _ id data fin h =>
    have hid : id ≤ Varint.maxValue := by
      obtain ⟨s, _, _, hlive, -⟩ := h
      exact (hin.streams id s hlive).1
    obtain ⟨_, _, _, fc, -, -, rfl⟩ := SendsData.frame h
    exact hcons (encodable_wtStream hid)
  | sendReset id errorCode s hcode hlive =>
    obtain ⟨hid, hle, hmax⟩ := hin.streams id s hlive
    rw [Resets, Book.settle_sent]
    exact hcons fun _ => encodable_wtResetStream hid hcode (Nat.le_trans hle hmax)
  | sendStop id errorCode s hcode hlive =>
    exact hcons fun _ => encodable_pair rfl (by decide) (hin.streams id s hlive).1
      (Nat.le_trans hcode (by decide))
  | sendDatagram data => exact hcons encodable_datagram
  | sendClose errorCode reason => exact hcons fun _ => encodable_closeCapsule errorCode reason
  | sendDrain => exact hcons fun _ => encodable_wtDrainSession
  | sendMaxData maximum hcan => exact hcons fun _ => encodable_single rfl (by decide) hcan.1
  | sendMaxStreamData id maximum s hmax hlive =>
    exact hcons fun _ => encodable_pair rfl (by decide) (hin.streams id s hlive).1 hmax
  | sendMaxStreams maximum raised hmax =>
    exact hcons fun _ => encodable_single rfl (htype raised) (Nat.le_trans hmax (by decide))
  | takeReset id errorCode s =>
    rw [Book.settle_sent]
    exact hsent
  | takeStop id errorCode =>
    obtain ⟨_, _, h⟩ := b.recordStopSending_frame id
    rw [h]
    exact hsent
  | read id s =>
    rw [Book.settle_sent]
    exact hsent
  | create | takeData | takeMaxData | takeMaxStreamData | takeMaxStreamDataClosed
  | takeMaxStreamDataLost | takeMaxStreams | takePassive | notify => exact hsent

theorem Drift.inRange (h : Drift b b') (hpeer : b.peerConfig.Bounded) (hin : b.InRange) :
    b'.InRange := by
  obtain ⟨_, _, hflows⟩ := h.flow
  refine ⟨h.numbered hin.numbered, ?_, hflows.step.streamLimits hin.limits, ?_⟩
  · obtain h | h := h
    · exact h.streamsFit hpeer hin
    · cases h with
      | halfData id data fin s s' hlive hpart hrecv =>
        obtain ⟨-, -, rfl⟩ := WtStream.recvData_eq_ok hrecv
        refine hin.streams.putStream ?_
        unfold noteData
        split <;> exact hin.streams id s hlive
  · obtain h | h := h
    · exact h.sentEncodable hin
    · cases h
      exact hin.sent

theorem inRange_new (role : Role) {config peerConfig : WtConfig} (hconfig : config.Bounded)
    (hpeer : peerConfig.Bounded) : (Book.new role config peerConfig).InRange := by
  refine ⟨fun bidirectional => ?_, fun id s h => ?_, fun bidirectional => ?_, fun c h => ?_⟩
  · cases bidirectional <;> rfl
  · simp [Book.stream?, Book.new] at h
  · cases bidirectional with
    | true => exact ⟨hconfig.streamsBidi, hpeer.streamsBidi⟩
    | false => exact ⟨hconfig.streamsUni, hpeer.streamsUni⟩
  · cases h

theorem WtReach.inRange {role : Role} {config peerConfig : WtConfig} {s : WtSession}
    (reach : WtReach role config peerConfig s) (hconfig : config.Bounded)
    (hpeer : peerConfig.Bounded) : s.InRange :=
  reach.keeps (inRange_new role hconfig hpeer) fun _ _ hsame _ hin hstep =>
    hstep.inRange (hsame.peerConfig ▸ hpeer) hin

end Invariant

/-! ## The calls that send -/

/-- A call that sends changes nothing when it fails, and all that was ever handed to the encoder,
by a call or by `process`, could be encoded if the length of its payload could. -/
theorem send_atomic_encodable {role : Role} {config peerConfig : WtConfig} {s : WtSession}
    (run : WtRun role config peerConfig s) (hconfig : config.Bounded)
    (hpeer : peerConfig.Bounded) :
    (∀ call : WtCall, call.isSend = true → ∀ e, (call.exec s).1 = .error e →
        (call.exec s).2 = s) ∧
      ∀ c ∈ s.sent, c.PayloadFits → c.Encodable := by
  refine ⟨fun call hsend e herror => ?_, ((WtReach.run run).inRange hconfig hpeer).sent⟩
  have hatomic := send_atomic run.kept.send hsend
  unfold Ensures at hatomic
  obtain ⟨-, -, hsame⟩ | ⟨a, hok, -⟩ := hatomic
  · exact hsame
  · cases herror.symm.trans hok

theorem WtConfig.bounded_default : WtConfig.default.Bounded := by
  constructor <;> decide

/-- A client whose first stream was stopped by the server. -/
def stoppedClient : WtSession :=
  runCalls (WtSession.client .default .default)
    [.initiate, .openBidiStream, .feed (Capsule.wtStopSending 0 7).encode, .process]

theorem stoppedClient_run : WtRun .client .default .default stoppedClient := WtRun.init.runCalls _

theorem send_atomic_encodable_stopped :
    (Capsule.wtResetStream 0 7 0) ∈ stoppedClient.sent ∧
      ((WtCall.sendStreamData 0 [1] false).exec stoppedClient).1.isOk = false ∧
      (∀ call : WtCall, call.isSend = true → ∀ e, (call.exec stoppedClient).1 = .error e →
        (call.exec stoppedClient).2 = stoppedClient) ∧
      ∀ c ∈ stoppedClient.sent, c.PayloadFits → c.Encodable :=
  ⟨by decide +kernel, by decide +kernel,
    send_atomic_encodable stoppedClient_run WtConfig.bounded_default WtConfig.bounded_default⟩

end Http2.WebTransport
