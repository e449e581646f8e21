import Http2.WebTransport.Handling

/-! What `process` does with the capsules that it finds. -/
namespace Http2.WebTransport

open Lib Lib.Prog WtSession

/-- A capsule was handled: the book moves, and has it in its record. -/
structure Accepts (s : WtSession) (c : Capsule) (s' : WtSession) : Prop where
  acts : Acts s s'
  received : s'.received = c :: s.received

/-- A capsule failed, perhaps midway. -/
inductive Drifts (s : WtSession) : WtSession → Prop
  | acts (s' : WtSession) (h : Acts s s') : Drifts s s'
  | stray (s₁ : WtSession) (b : Book) (h : Acts s s₁) (hstray : Stray s₁.toBook b) :
    Drifts s { s₁ with toBook := b }

section Dispatch

variable {s s₁ s' : WtSession} {c : Capsule} {id : Nat}

/-- A capsule that is dispatched fails, or its record completes what it did. -/
def Dispatched (s : WtSession) (c : Capsule) (r : WtResult Unit) (s' : WtSession) : Prop :=
  (∃ e, r = .error e) ∧ Drifts s s' ∨
    r = .ok () ∧ Accepts s c { s' with toBook := s'.toBook.logReceived c }

theorem Dispatched.refused {e : WtError} : Dispatched s c (.error e) s :=
  .inl ⟨⟨e, rfl⟩, .acts s (.refl s)⟩

theorem Dispatched.of_refused {r : WtResult Unit} (h : Refused s r s') : Dispatched s c r s' := by
  obtain ⟨e, rfl, rfl⟩ := h
  exact .refused

/-- A capsule that says nothing about the book is only recorded. -/
theorem Dispatched.passive (hc : c.Passive) : Dispatched s c (.ok ()) s :=
  .inr ⟨rfl, .of_update (.takePassive s.toBook c hc) rfl rfl, rfl⟩

theorem Acts.notify {e : WtEvent} (h : Acts s s')
    (hopened : ∀ id bidirectional, e ≠ .streamOpened id bidirectional)
    (hknown : ∀ id, e.streamId? = some id → s'.isPeerInitiated id = true →
      s'.slot id ≠ .unknown) :
    Acts s { s' with toBook := s'.toBook.logEvent e, events := s'.events ++ [e] } :=
  h.trans (.of_notify (.notify s'.toBook e hopened hknown) rfl rfl)

/-- A capsule that is recorded and reported. -/
theorem Dispatched.report {e : WtEvent} (hc : c.Passive)
    (hopened : ∀ id bidirectional, e ≠ .streamOpened id bidirectional)
    (hnone : e.streamId? = none) :
    Dispatched s c (.ok ()) { s with
      toBook := s.toBook.logEvent e
      events := s.events ++ [e] } := by
  have hrecord : Acts s { s with toBook := s.toBook.logReceived c } :=
    .of_update (.takePassive s.toBook c hc) rfl rfl
  refine .inr ⟨rfl, hrecord.notify hopened fun id h => ?_, rfl⟩
  rw [hnone] at h
  cases h

theorem dataOutcome_moves {data : Bytes} {fin : Bool} {r : WtResult Unit}
    (h : DataOutcome s id data fin r s') : Dispatched s (.wtStream id data fin) r s' := by
  have hpart : Admits s.toBook id data fin → ∀ {s₁ : WtSession}, Admitted s id s₁ →
      StreamId.isBidirectional id = true ∨ s₁.isPeerInitiated id = true := by
    rintro ⟨-, hadmits⟩ s₁ (⟨hsome, rfl⟩ | ⟨hunknown, hcreates⟩)
    · obtain ⟨stream, hstream⟩ := Option.isSome_iff_exists.1 hsome
      simp only [hstream] at hadmits
      exact hadmits.2
    · simp only [(Book.slot_eq_unknown.1 hunknown).1] at hadmits
      obtain ⟨_, _, _, rfl⟩ := hcreates.frame
      exact .inr hadmits.1
  cases h with
  | refused e => exact .refused
  | streamFull s₁ e hadmits hadmitted => exact .inl ⟨⟨e, rfl⟩, .acts _ hadmitted.acts⟩
  | sessionFull s₁ e stream hadmits hadmitted hrecv =>
    exact .inl ⟨⟨e, rfl⟩, .stray s₁ _ hadmitted.acts
      (.halfData _ id data fin _ stream hadmitted.stream (hpart hadmits hadmitted) hrecv)⟩
  | taken s₁ stream fc hadmits hadmitted hrecv hconsume =>
    rw [← hadmitted.flowControl] at hconsume
    have htake := Move.takeData s₁.toBook id data fin _ stream fc hadmitted.stream
      (hpart hadmits hadmitted) hrecv hconsume
    have hreceived : s₁.received = s.received := by
      obtain ⟨-, rfl⟩ | ⟨-, hcreates⟩ := hadmitted
      · rfl
      · obtain ⟨_, _, _, rfl⟩ := hcreates.frame
        rfl
    refine .inr ⟨rfl, ?_, congrArg (List.cons _) hreceived⟩
    refine (hadmitted.acts.trans (.of_update htake rfl rfl)).notify ?_ ?_
    · intro id' bidirectional h
      cases h
    · intro id' h hpeer
      obtain rfl := Option.some.inj h
      simp only [Book.slot_logReceived, Book.slot_setFlow, Book.slot_putStream, if_true]
      exact Slot.live_ne_unknown

theorem resetOutcome_moves {errorCode size : Nat} {r : WtResult Unit}
    (h : ResetOutcome s id errorCode size r s') :
    Dispatched s (.wtResetStream id errorCode size) r s' := by
  cases h with
  | unknown | invalid => exact .refused
  | taken stream hlive hcan hpart hsize =>
    subst hsize
    -- the report first, while the stream is there
    have hnotify : Acts s { s with
        toBook := s.toBook.logEvent (.streamReset id errorCode)
        events := s.events ++ [.streamReset id errorCode] } := by
      refine (Acts.refl s).notify ?_ ?_
      · intro id' bidirectional h
        cases h
      · intro id' h hpeer
        obtain rfl := Option.some.inj h
        rw [Book.slot_eq_live.2 hlive]
        exact Slot.live_ne_unknown
    have htake := Move.takeReset (s.toBook.logEvent (.streamReset id errorCode)) id errorCode stream
      hlive hcan hpart
    rw [Book.settle_logReceived, Book.settle_logEvent] at htake
    refine .inr ⟨rfl, hnotify.trans (.of_update htake ?_ ?_), ?_⟩
    · exact Book.settle_sent
    · exact congrArg (List.cons _) Book.settle_notified
    · exact congrArg (List.cons _) Book.settle_received

theorem Opened.stopSendingReceived (h : Opened s id s₁) :
    s₁.stopSendingReceived id = s.stopSendingReceived id := by
  obtain ⟨-, rfl⟩ | ⟨hwill, hcreates⟩ := h
  · rfl
  · have hunknown := (willCreate_iff.1 hwill).2.2
    have hlive := hcreates.slot_inside id ⟨rfl, le_rfl⟩ hunknown
    rw [Book.slot_eq_live] at hlive
    have hids : s₁.stopSendingReceivedIds = s.stopSendingReceivedIds := by
      obtain ⟨_, _, _, rfl⟩ := hcreates.frame
      rfl
    have hnone := (Book.slot_eq_unknown.1 hunknown).1
    simp [Book.stopSendingReceived, hids, hlive, hnone, Book.peerStream, WtStream.new]

theorem Opened.isReceiveOnlyId (h : Opened s id s₁) (id' : Nat) :
    s₁.isReceiveOnlyId id' = s.isReceiveOnlyId id' := by
  obtain ⟨_, _, _, rfl⟩ := h.frame
  rfl

theorem Opened.received (h : Opened s id s₁) : s₁.received = s.received := by
  obtain ⟨_, _, _, rfl⟩ := h.frame
  rfl

theorem slot_recordStopSending (b : Book) (id id' : Nat) :
    (recordStopSending b id).slot id' = .unknown ↔ b.slot id' = .unknown := by
  unfold recordStopSending
  cases hstream : b.stream? id with
  | none => exact Iff.rfl
  | some stream =>
    have hput : (b.putStream id stream.setStopSendingReceived).slot id' = .unknown ↔
        b.slot id' = .unknown := by
      rw [Book.slot_putStream]
      by_cases h : id' = id
      · rw [if_pos h, h, Book.slot_eq_live.2 hstream]
        exact ⟨fun h => absurd h Slot.live_ne_unknown, fun h => absurd h Slot.live_ne_unknown⟩
      · rw [if_neg h]
    exact hput

@[simp] theorem recordStopSending_received (b : Book) (id : Nat) :
    (recordStopSending b id).received = b.received := by
  unfold recordStopSending
  cases b.stream? id <;> rfl

@[simp] theorem recordStopSending_sent (b : Book) (id : Nat) :
    (recordStopSending b id).sent = b.sent := by
  unfold recordStopSending
  cases b.stream? id <;> rfl

@[simp] theorem recordStopSending_notified (b : Book) (id : Nat) :
    (recordStopSending b id).notified = b.notified := by
  unfold recordStopSending
  cases b.stream? id <;> rfl

@[simp] theorem recordStopSending_role (b : Book) (id : Nat) :
    (recordStopSending b id).role = b.role := by
  unfold recordStopSending
  cases b.stream? id <;> rfl

theorem stopOutcome_moves {errorCode : Nat} {r : WtResult Unit}
    (h : StopOutcome s id errorCode r s') : Dispatched s (.wtStopSending id errorCode) r s' := by
  cases h with
  | refused e => exact .refused
  | taken s₁ s₂ hconcerns hopened hanswer =>
    have hnamed := hopened.named hconcerns
    have hsender := (hopened.isReceiveOnlyId id).trans hconcerns.1
    have hfirst := hopened.stopSendingReceived.trans hconcerns.2.2
    have htake := Move.takeStop s₁.toBook id errorCode hnamed hsender hfirst
    have hrecorded : Acts s { s₁ with
        toBook := (recordStopSending s₁.toBook id).logReceived (.wtStopSending id errorCode) } :=
      hopened.acts.trans (.of_update htake (recordStopSending_sent _ _)
        (recordStopSending_notified _ _))
    have hnotified := hrecorded.notify (e := .stopSending id errorCode)
      (fun _ _ h => by cases h) fun id' h hpeer => by
        obtain rfl := Option.some.inj h
        rw [Book.slot_logReceived, Ne, slot_recordStopSending]
        have hpeer' : s₁.isPeerInitiated id = true := by
          simpa [isPeerInitiated_eq, Book.logReceived] using hpeer
        exact hnamed.2 hpeer'
    have hreceived : (recordStopSending s₁.toBook id).received = s.received :=
      (recordStopSending_received _ _).trans hopened.received
    obtain ⟨-, rfl⟩ | ⟨stream, hlive, hcode, hcan, hpart, rfl⟩ := hanswer
    · exact .inr ⟨rfl, hnotified, congrArg (List.cons _) hreceived⟩
    · have hlive' : (recordStopSending s₁.toBook id).stream? id
          = some stream.setStopSendingReceived := by
        rw [recordStopSending_stream?, hlive]
        rfl
      have hreset := Move.sendReset (((recordStopSending s₁.toBook id).logReceived
        (.wtStopSending id errorCode)).logEvent (.stopSending id errorCode)) id errorCode
        stream.setStopSendingReceived hcode hlive' hcan hpart
      have hcommutes : Resets (((recordStopSending s₁.toBook id).logReceived
            (.wtStopSending id errorCode)).logEvent (.stopSending id errorCode)) id errorCode
            stream.setStopSendingReceived =
          ((Resets (recordStopSending s₁.toBook id) id errorCode
            stream.setStopSendingReceived).logEvent (.stopSending id errorCode)).logReceived
            (.wtStopSending id errorCode) := by
        rw [Resets, Resets, ← Book.settle_logEvent, ← Book.settle_logReceived]
        rfl
      rw [hcommutes] at hreset
      refine .inr ⟨rfl, hnotified.trans (.of_sends hreset ?_ ?_), ?_⟩
      · exact Book.settle_sent
      · exact congrArg (List.cons _) Book.settle_notified
      · have hsettled : (Resets (recordStopSending s₁.toBook id) id errorCode
            stream.setStopSendingReceived).received = s.received :=
          Book.settle_received.trans hreceived
        exact congrArg (List.cons _) hsettled

theorem limitOutcome_moves {maximum : Nat} {r : WtResult Unit}
    (h : LimitOutcome s id maximum r s') :
    Dispatched s (.wtMaxStreamData id maximum) r s' := by
  cases h with
  | refused e => exact .refused
  | overflow s₁ e _ _ _ hcreates => exact .inl ⟨⟨e, rfl⟩, .acts _ hcreates.acts⟩
  | closed last hconcerns hslot hlt =>
    have hmove := Move.takeMaxStreamDataClosed s.toBook id maximum last hslot hconcerns.1
      hconcerns.2.2 hlt
    exact .inr ⟨rfl, .of_update hmove rfl rfl, rfl⟩
  | live s₁ stream hconcerns hopened hlive hmax hlt =>
    have hmove := Move.takeMaxStreamData s₁.toBook id maximum stream hlive
      ((hopened.isReceiveOnlyId id).trans hconcerns.1)
      (hopened.stopSendingReceived.trans hconcerns.2.2) hmax hlt
    exact .inr ⟨rfl, hopened.acts.trans (.of_update hmove rfl rfl),
      congrArg (List.cons _) hopened.received⟩
  | lost hconcerns hslot hwill =>
    have hopened : Opened s id s := .inl ⟨hwill, rfl⟩
    have hmove := Move.takeMaxStreamDataLost s.toBook id maximum (hopened.named hconcerns) hslot
    exact .inr ⟨rfl, .of_update hmove rfl rfl, rfl⟩

theorem dispatch_moves (s : WtSession) (c : Capsule) :
    Ensures (dispatch c) s (Dispatched s c) := by
  cases c with
  | wtStream id data fin =>
    exact ensures_mono (handleStreamData_spec s id data fin) fun _ _ => dataOutcome_moves
  | wtResetStream id errorCode size =>
    exact ensures_mono (handleResetStream_spec s id errorCode size) fun _ _ => resetOutcome_moves
  | wtStopSending id errorCode =>
    exact ensures_mono (handleStopSending_spec s id errorCode) fun _ _ => stopOutcome_moves
  | wtMaxStreamData id maximum =>
    exact ensures_mono (handleMaxStreamData_spec s id maximum) fun _ _ => limitOutcome_moves
  | wtMaxData maximum =>
    refine ensures_mono (handleMaxData_spec s maximum) fun r s' h => ?_
    obtain ⟨-, hrefused⟩ | ⟨⟨hmax, hlt⟩, rfl, rfl⟩ := h
    · exact .of_refused hrefused
    · exact .inr ⟨rfl, .of_update (.takeMaxData s.toBook maximum hmax hlt) rfl rfl, rfl⟩
  | wtMaxStreams maximum bidirectional =>
    refine ensures_mono (handleMaxStreams_spec s maximum bidirectional) fun r s' h => ?_
    obtain ⟨-, hrefused⟩ | ⟨⟨hmax, hlt⟩, rfl, rfl⟩ := h
    · exact .of_refused hrefused
    · exact .inr ⟨rfl, .of_update (.takeMaxStreams s.toBook maximum bidirectional hmax hlt) rfl rfl,
        rfl⟩
  | wtStreamDataBlocked id maximum =>
    simp only [dispatch, handleStreamDataBlocked, receivingStream, ensures_bind, ensures_get]
    cases s.stream? id with
    | none => exact .refused
    | some stream =>
      simp only [ensures_bind, ensures_require, ensures_pure]
      exact ⟨fun _ => .passive trivial, fun _ => .refused⟩
  | wtStreamsBlocked maximum bidirectional =>
    simp only [dispatch, ensures_require]
    exact ⟨fun _ => .passive trivial, fun _ => .refused⟩
  | wtDrainSession =>
    simp only [dispatch, handleDrainSession, ensures_bind, ensures_get, ensures_ite,
      ensures_setState, ensures_notify, ensures_pure]
    refine ⟨fun _ => ?_, fun _ => .passive trivial⟩
    have hreport : Dispatched s .wtDrainSession (.ok ()) { s with
        toBook := s.toBook.logEvent .sessionDraining
        events := s.events ++ [.sessionDraining] } :=
      .report trivial (fun _ _ h => by cases h) rfl
    obtain ⟨⟨e, h⟩, -⟩ | ⟨-, hacts, hreceived⟩ := hreport
    · cases h
    · exact .inr ⟨rfl, hacts.setState _, hreceived⟩
  | wtCloseSession errorCode reason =>
    simp only [dispatch, ensures_bind, ensures_setState, ensures_notify]
    have hreport : Dispatched s (.wtCloseSession errorCode reason) (.ok ()) { s with
        toBook := s.toBook.logEvent (.sessionClosed errorCode reason)
        events := s.events ++ [.sessionClosed errorCode reason] } :=
      .report trivial (fun _ _ h => by cases h) rfl
    obtain ⟨⟨e, h⟩, -⟩ | ⟨-, hacts, hreceived⟩ := hreport
    · cases h
    · exact .inr ⟨rfl, hacts.setState _, hreceived⟩
  | datagram data => exact .report trivial (fun _ _ h => by cases h) rfl
  | wtDataBlocked | padding | unknown => exact .passive trivial

/-- A capsule is ignored, fails, or is handled. -/
theorem handleCapsule_moves (s : WtSession) (c : Capsule) :
    Ensures (handleCapsule c) s fun r s' =>
      s.state = .closed ∧ r = .ok () ∧ s' = s ∨
        s.state ≠ .closed ∧ ((∃ e, r = .error e) ∧ Drifts s s' ∨ r = .ok () ∧ Accepts s c s') := by
  simp only [handleCapsule, ensures_bind, ensures_get, ensures_ite, ensures_pure]
  refine ⟨fun hclosed => .inl ⟨hclosed, trivial, trivial⟩, fun hopen => ?_⟩
  refine ensures_mono (dispatch_moves s c) fun r s' h => ?_
  obtain ⟨⟨e, rfl⟩, hdrifts⟩ | ⟨rfl, haccepts⟩ := h
  · exact .inr ⟨hopen, .inl ⟨⟨e, rfl⟩, hdrifts⟩⟩
  · exact .inr ⟨hopen, .inr ⟨rfl, haccepts⟩⟩

end Dispatch

/-! ## The loop of `process` -/

/-- A capsule that is decoded leaves the buffer. -/
theorem decode_some {d d' : CapsuleDecoder} {c : Capsule} (h : d.decode = .ok (some (c, d'))) :
    d'.buffer.length < d.buffer.length ∧ d'.maxBufferSize = d.maxBufferSize ∧ c.InRange := by
  unfold CapsuleDecoder.decode at h
  obtain ⟨r, hr, h⟩ := bind_eq_ok_iff.1 h
  cases r with
  | none => cases h
  | some r =>
    obtain ⟨c', total⟩ := r
    obtain ⟨rfl, rfl⟩ := Prod.mk.inj (Option.some.inj (Except.ok.inj h))
    obtain ⟨hpos, hle, capsuleType, payload, hdecode⟩ := parseCapsule_ok hr
    refine ⟨?_, rfl, decodePayload_range hdecode⟩
    rw [List.length_drop]
    omega

/-- Handling a capsule leaves the decoder alone. -/
theorem handleCapsule_decoder (s : WtSession) (c : Capsule) :
    (handleCapsule c s).2.capsuleDecoder = s.capsuleDecoder := by
  have h : Ensures (handleCapsule c) s fun _ s' => s'.capsuleDecoder = s.capsuleDecoder := by
    refine ensures_mono (handleCapsule_moves s c) fun r s' h => ?_
    obtain ⟨-, -, rfl⟩ | ⟨-, ⟨-, hdrifts⟩ | ⟨-, haccepts⟩⟩ := h
    · rfl
    · cases hdrifts with
      | acts _ h => exact h.decoder
      | stray s₁ b h _ => exact h.decoder
    · exact haccepts.acts.decoder
  exact h

/-- A run of the loop: the capsules that it took in turn, and how it ended. -/
inductive Processed : WtSession → List Capsule → WtResult Unit → WtSession → Prop
  | waits (s : WtSession) (h : s.capsuleDecoder.decode = .ok none) : Processed s [] (.ok ()) s
  | garbled (s : WtSession) (e : WtError) (h : s.capsuleDecoder.decode = .error e) :
    Processed s [] (.error e) s
  | rejected (s s' : WtSession) (c : Capsule) (d : CapsuleDecoder) (e : WtError)
    (h : s.capsuleDecoder.decode = .ok (some (c, d)))
    (hfails : handleCapsule c { s with capsuleDecoder := d } = (.error e, s')) :
    Processed s [c] (.error e) s'
  | handled (s s₁ s' : WtSession) (c : Capsule) (d : CapsuleDecoder) (cs : List Capsule)
    (r : WtResult Unit) (h : s.capsuleDecoder.decode = .ok (some (c, d)))
    (hhandled : handleCapsule c { s with capsuleDecoder := d } = (.ok (), s₁))
    (hrest : Processed s₁ cs r s') :
    Processed s (c :: cs) r s'

theorem decode_nil {d : CapsuleDecoder} (h : d.buffer = []) : d.decode = .ok none := by
  simp only [CapsuleDecoder.decode, parseCapsule, h, if_true, bind, Except.bind, pure, Except.pure]

/-- The fuel of the loop is enough: it ends for want of capsules or with an error. -/
theorem processLoop_spec (s : WtSession) (fuel : Nat)
    (hfuel : s.capsuleDecoder.buffer.length ≤ fuel) :
    Ensures (processLoop fuel) s fun r s' => ∃ cs, Processed s cs r s' := by
  induction fuel generalizing s with
  | zero =>
    refine ⟨[], .waits s ?_⟩
    have hnil : s.capsuleDecoder.buffer = [] := List.length_eq_zero_iff.1 (Nat.le_zero.1 hfuel)
    exact decode_nil hnil
  | succ fuel ih =>
    simp only [processLoop, ensures_bind, ensures_get, ensures_lift]
    cases hdecode : s.capsuleDecoder.decode with
    | error e => exact ⟨[], .garbled s e hdecode⟩
    | ok found =>
      cases found with
      | none => exact ⟨[], .waits s hdecode⟩
      | some found =>
        obtain ⟨c, d⟩ := found
        simp only [ensures_bind, ensures_modify]
        have hdecoder := handleCapsule_decoder { s with capsuleDecoder := d } c
        have hshorter := (decode_some hdecode).1
        unfold Ensures
        rcases hresult : handleCapsule c { s with capsuleDecoder := d } with ⟨r, s₁⟩
        rw [hresult] at hdecoder
        cases r with
        | error e => exact ⟨[c], .rejected s s₁ c d e hdecode hresult⟩
        | ok u =>
          have hle : s₁.capsuleDecoder.buffer.length ≤ fuel := by
            have hsame : s₁.capsuleDecoder = d := hdecoder
            rw [hsame]
            omega
          obtain ⟨cs, hrest⟩ := ih s₁ hle
          exact ⟨c :: cs, .handled s s₁ _ c d cs _ hdecode hresult hrest⟩

theorem process_spec (s : WtSession) :
    Ensures process s fun r s' => ∃ cs, Processed s cs r s' := by
  simp only [process, ensures_bind, ensures_get]
  exact processLoop_spec s _ le_rfl

end Http2.WebTransport
