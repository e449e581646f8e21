import Http2.WebTransport.Handling

/-! What a capsule leaves behind that `handle_capsule` rejects. -/
namespace Http2.WebTransport

open Lib Lib.Prog WtSession

/-- The limit of a stream that may receive has room for that much more. -/
def StreamTakes (s : WtStream) (size : Nat) : Prop :=
  s.canRecv = true ∧ saturatingAdd s.recvOffset size ≤ s.recvMax

/-- The limit of the session has room for that much more. -/
def SessionTakes (fc : WtFlowControl) (size : Nat) : Prop :=
  saturatingAdd fc.recvOffset size ≤ fc.recvMax

/-- Taking the data changes the record of the stream. It does not where the offset is at the end of
the numbers already. -/
def Advances (s : WtStream) (data : Bytes) (fin : Bool) : Prop :=
  fin = true ∨ saturatingAdd s.recvOffset data.length ≠ s.recvOffset ∨
    data ≠ [] ∧ s.hasReceivedData = false

/-- The capsule fails after it did a part of its work: WT_STREAM creates streams before the limit of
its stream is asked and advances the stream before the limit of the session is asked. A maximum
that no varint holds fails after the stream for it was created. -/
def LeavesTrace (b : Book) : Capsule → Prop
  | .wtStream id data fin =>
    Admits b id data fin ∧
      (b.slot id = .unknown ∧ ¬ StreamTakes (b.streamFor id) data.length ∨
        StreamTakes (b.streamFor id) data.length ∧ ¬ SessionTakes b.flowControl data.length ∧
          (b.slot id = .unknown ∨ Advances (b.streamFor id) data fin))
  | .wtMaxStreamData id maximum =>
    b.willCreateImplicitPeerBidiStream id = true ∧ LimitGrows b id maximum ∧
      Varint.maxValue < maximum
  | _ => False

/-- The session is as it was: what counts of its streams is what is found under each identifier. -/
def Untouched (s s' : WtSession) : Prop :=
  (∀ id, s'.stream? id = s.stream? id) ∧
    s' = { s with toBook := { s.toBook with streams := s'.streams } }

/-- A failure changes something exactly when `p` holds. -/
def FailsWithTrace (p : Prop) (s : WtSession) (r : WtResult Unit) (s' : WtSession) : Prop :=
  p ∧ (∃ e, r = .error e) ∧ ¬ Untouched s s' ∨ ¬ p ∧ (r = .ok () ∨ Untouched s s')

section Trace

variable {s s₁ : WtSession} {id : Nat}

theorem recvData_cases (stream : WtStream) (size : Nat) (fin : Bool) :
    (∃ e, stream.recvData size fin = .error e) ∧ ¬ StreamTakes stream size ∨
      stream.recvData size fin = .ok { stream with
          recvOffset := saturatingAdd stream.recvOffset size
          recvState := if fin then .dataRecvd else stream.recvState } ∧
        StreamTakes stream size := by
  unfold WtStream.recvData StreamTakes
  by_cases hcan : stream.canRecv = true
  · rw [if_neg (by simpa [WtStream.canRecv] using hcan)]
    by_cases hle : saturatingAdd stream.recvOffset size ≤ stream.recvMax
    · rw [if_neg (Nat.not_lt.2 hle)]
      exact .inr ⟨rfl, hcan, hle⟩
    · rw [if_pos (Nat.lt_of_not_le hle)]
      exact .inl ⟨⟨_, rfl⟩, fun h => hle h.2⟩
  · rw [if_pos (by simpa [WtStream.canRecv] using hcan)]
    exact .inl ⟨⟨_, rfl⟩, fun h => hcan h.1⟩

theorem consumeRecv_cases (fc : WtFlowControl) (size : Nat) :
    (∃ e, fc.consumeRecv size = .error e) ∧ ¬ SessionTakes fc size ∨
      fc.consumeRecv size = .ok { fc with recvOffset := saturatingAdd fc.recvOffset size } ∧
        SessionTakes fc size := by
  unfold WtFlowControl.consumeRecv SessionTakes
  by_cases hle : saturatingAdd fc.recvOffset size ≤ fc.recvMax
  · rw [if_neg (Nat.not_lt.2 hle)]
    exact .inr ⟨rfl, hle⟩
  · rw [if_pos (Nat.lt_of_not_le hle)]
    exact .inl ⟨⟨_, rfl⟩, hle⟩

theorem noteData_eq_iff {stream : WtStream} {data : Bytes} {fin : Bool}
    (hcan : stream.canRecv = true) :
    noteData { stream with
        recvOffset := saturatingAdd stream.recvOffset data.length
        recvState := if fin then .dataRecvd else stream.recvState } data = stream ↔
      ¬ Advances stream data fin := by
  obtain ⟨_, _, _, _, recvState, _, _, _, _, _, _, received⟩ := stream
  have hrecv : recvState = .recv := by
    cases recvState with
    | recv => rfl
    | dataRecvd | dataRead | resetRead => cases hcan
  subst hrecv
  by_cases hdata : data = []
  · cases fin <;> simp [noteData, Advances, hdata]
  · cases fin <;> cases received <;>
      simp [noteData, Advances, hdata, WtStream.setHasReceivedData]

theorem Untouched.refl (s : WtSession) : Untouched s s := ⟨fun _ => rfl, rfl⟩

theorem Untouched.slot {s' : WtSession} (h : Untouched s s') (id : Nat) : s'.slot id = s.slot id := by
  have hclosed : s'.closedStreamSendMax = s.closedStreamSendMax := by rw [h.2]
  unfold Book.slot
  rw [h.1 id, hclosed]

theorem not_untouched {stream : WtStream} (hunknown : s.slot id = .unknown)
    (hlive : s₁.slot id = .live stream) : ¬ Untouched s s₁ := by
  intro h
  exact Slot.live_ne_unknown (hlive.symm.trans ((h.slot id).trans hunknown))

/-- Putting a stream back leaves a trace when the record differs. -/
theorem untouched_putStream {stream stream' : WtStream} (hlive : s.stream? id = some stream) :
    Untouched s { s with toBook := s.toBook.putStream id stream' } ↔ stream' = stream := by
  constructor
  · intro h
    have hsame := (h.1 id).trans hlive
    simpa [Book.stream?, Book.putStream] using hsame
  · rintro rfl
    refine ⟨fun id' => ?_, rfl⟩
    simp only [Book.stream?, Book.putStream, lookup_insert_ite]
    by_cases h : id' = id
    · rw [if_pos h, h]
      exact hlive.symm
    · rw [if_neg h]

theorem dataOutcome_traces {id : Nat} {data : Bytes} {fin : Bool} {r : WtResult Unit}
    {s' : WtSession} (h : DataOutcome s id data fin r s') :
    FailsWithTrace (LeavesTrace s.toBook (.wtStream id data fin)) s r s' := by
  have hrecv := recvData_cases (s.streamFor id) data.length fin
  have hconsume := consumeRecv_cases s.flowControl data.length
  -- the streams that came with the capsule, or none
  have hadded : ∀ {s₁ : WtSession}, Admitted s id s₁ →
      s.slot id = .unknown ∧ s₁.slot id = .live (s.streamFor id) ∨
        s.slot id ≠ .unknown ∧ s₁ = s := by
    intro s₁ hadmitted
    have hstream := hadmitted.stream
    obtain ⟨hsome, rfl⟩ | ⟨hunknown, hcreates⟩ := hadmitted
    · refine .inr ⟨fun hunknown => ?_, rfl⟩
      rw [(Book.slot_eq_unknown.1 hunknown).1] at hsome
      cases hsome
    · exact .inl ⟨hunknown, Book.slot_eq_live.2 hstream⟩
  cases h with
  | refused e hadmits => exact .inr ⟨fun h => hadmits h.1, .inr (.refl s)⟩
  | streamFull s₁ e hadmits hadmitted herror =>
    obtain ⟨-, hfull⟩ | ⟨hok, -⟩ := hrecv
    · obtain ⟨hunknown, hlive⟩ | ⟨hknown, rfl⟩ := hadded hadmitted
      · exact .inl ⟨⟨hadmits, .inl ⟨hunknown, hfull⟩⟩, ⟨e, rfl⟩, not_untouched hunknown hlive⟩
      · refine .inr ⟨?_, .inr (.refl _)⟩
        rintro ⟨-, ⟨hunknown, -⟩ | ⟨htakes, -⟩⟩
        · exact hknown hunknown
        · exact hfull htakes
    · cases hok.symm.trans herror
  | sessionFull s₁ e stream hadmits hadmitted hstream herror =>
    obtain ⟨⟨e', hfails⟩, -⟩ | ⟨hok, htakes⟩ := hrecv
    · cases hfails.symm.trans hstream
    · obtain rfl := Except.ok.inj (hok.symm.trans hstream)
      obtain ⟨-, hfull⟩ | ⟨hok', -⟩ := hconsume
      · obtain ⟨hunknown, -⟩ | ⟨hknown, rfl⟩ := hadded hadmitted
        · refine .inl ⟨⟨hadmits, .inr ⟨htakes, hfull, .inl hunknown⟩⟩, ⟨e, rfl⟩, ?_⟩
          exact not_untouched hunknown (by simp; rfl)
        · have hiff := (untouched_putStream hadmitted.stream).trans
            (@noteData_eq_iff _ data fin htakes.1)
          by_cases hadv : Advances (s₁.streamFor id) data fin
          · exact .inl ⟨⟨hadmits, .inr ⟨htakes, hfull, .inr hadv⟩⟩, ⟨e, rfl⟩, fun h => hiff.1 h hadv⟩
          · refine .inr ⟨?_, .inr (hiff.2 hadv)⟩
            rintro ⟨-, ⟨-, hfull'⟩ | ⟨-, -, hunknown | hadv'⟩⟩
            · exact hfull' htakes
            · exact hknown hunknown
            · exact hadv hadv'
      · cases hok'.symm.trans herror
  | taken s₁ stream fc hadmits hadmitted hstream hfc =>
    refine .inr ⟨?_, .inl rfl⟩
    rintro ⟨-, ⟨-, hfull⟩ | ⟨-, hfull, -⟩⟩
    · obtain ⟨⟨e', hfails⟩, -⟩ | ⟨-, htakes⟩ := hrecv
      · cases hfails.symm.trans hstream
      · exact hfull htakes
    · obtain ⟨⟨e', hfails⟩, -⟩ | ⟨-, htakes⟩ := hconsume
      · cases hfails.symm.trans hfc
      · exact hfull htakes

theorem limitOutcome_traces {maximum : Nat} {r : WtResult Unit} {s' : WtSession}
    (h : LimitOutcome s id maximum r s') :
    FailsWithTrace (LeavesTrace s.toBook (.wtMaxStreamData id maximum)) s r s' := by
  -- a limit that is taken fits a varint, or creates nothing
  have htaken : ∀ {s' : WtSession},
      (s.willCreateImplicitPeerBidiStream id = true → maximum ≤ Varint.maxValue) →
      FailsWithTrace (LeavesTrace s.toBook (.wtMaxStreamData id maximum)) s (.ok ()) s' :=
    fun hfits => .inr ⟨fun h => absurd (hfits h.1) (Nat.not_le.2 h.2.2), .inl rfl⟩
  cases h with
  | refused e hbad => exact .inr ⟨fun h => hbad h.2.1, .inr (.refl s)⟩
  | overflow s₁ e hmax hwill hgrows hcreates =>
    have hunknown := (willCreate_iff.1 hwill).2.2
    exact .inl ⟨⟨hwill, hgrows, hmax⟩, ⟨e, rfl⟩,
      not_untouched hunknown (hcreates.slot_inside id ⟨rfl, le_rfl⟩ hunknown)⟩
  | closed last hconcerns hslot hlt =>
    refine htaken fun hwill => ?_
    cases hslot.symm.trans (willCreate_iff.1 hwill).2.2
  | live s₁ stream hconcerns hopened hlive hmax hlt => exact htaken fun _ => hmax
  | lost hconcerns hslot hwill =>
    exact htaken fun h => absurd (hwill.symm.trans h) Bool.false_ne_true

/-- The capsules that never leave a trace. -/
theorem FailsWithTrace.clean {r : WtResult Unit} {s' : WtSession} (h : r = .ok () ∨ Untouched s s') :
    FailsWithTrace False s r s' := .inr ⟨fun h => h, h⟩

theorem dispatch_traces (s : WtSession) (c : Capsule) :
    Ensures (dispatch c) s (FailsWithTrace (LeavesTrace s.toBook c) s) := by
  cases c with
  | wtStream id data fin =>
    exact ensures_mono (handleStreamData_spec s id data fin) fun _ _ => dataOutcome_traces
  | wtMaxStreamData id maximum =>
    exact ensures_mono (handleMaxStreamData_spec s id maximum) fun _ _ => limitOutcome_traces
  | wtResetStream id errorCode size =>
    refine ensures_mono (handleResetStream_spec s id errorCode size) fun r s' h => ?_
    cases h with
    | unknown | invalid => exact .clean (.inr (.refl s))
    | taken => exact .clean (.inl rfl)
  | wtStopSending id errorCode =>
    refine ensures_mono (handleStopSending_spec s id errorCode) fun r s' h => ?_
    cases h with
    | refused => exact .clean (.inr (.refl s))
    | taken => exact .clean (.inl rfl)
  | wtMaxData maximum =>
    refine ensures_mono (handleMaxData_spec s maximum) fun r s' h => ?_
    obtain ⟨-, e, rfl, rfl⟩ | ⟨-, rfl, -⟩ := h
    · exact .clean (.inr (.refl _))
    · exact .clean (.inl rfl)
  | wtMaxStreams maximum bidirectional =>
    refine ensures_mono (handleMaxStreams_spec s maximum bidirectional) fun r s' h => ?_
    obtain ⟨-, e, rfl, rfl⟩ | ⟨-, rfl, -⟩ := h
    · exact .clean (.inr (.refl _))
    · exact .clean (.inl rfl)
  | wtStreamDataBlocked id maximum =>
    simp only [dispatch, handleStreamDataBlocked, receivingStream, ensures_bind, ensures_get]
    cases s.stream? id with
    | none => exact .clean (.inr (.refl s))
    | some stream =>
      simp only [ensures_bind, ensures_require, ensures_pure]
      exact ⟨fun _ => .clean (.inl rfl), fun _ => .clean (.inr (.refl s))⟩
  | wtStreamsBlocked maximum bidirectional =>
    simp only [dispatch, ensures_require]
    exact ⟨fun _ => .clean (.inl rfl), fun _ => .clean (.inr (.refl s))⟩
  | wtDrainSession =>
    simp only [dispatch, handleDrainSession, ensures_bind, ensures_get, ensures_ite,
      ensures_setState, ensures_notify, ensures_pure]
    exact ⟨fun _ => .clean (.inl rfl), fun _ => .clean (.inl rfl)⟩
  | datagram | wtDataBlocked | wtCloseSession | padding | unknown => exact .clean (.inl rfl)

/-- A rejected capsule leaves no trace, in exactly the states where it is not `LeavesTrace`. -/
theorem rejected_untouched_iff (s : WtSession) (c : Capsule) :
    (∀ e, (handleCapsule c s).1 = .error e → Untouched s (handleCapsule c s).2) ↔
      s.state = .closed ∨ ¬ LeavesTrace s.toBook c := by
  have hspec : Ensures (handleCapsule c) s
      (FailsWithTrace (s.state ≠ .closed ∧ LeavesTrace s.toBook c) s) := by
    simp only [handleCapsule, ensures_bind, ensures_get, ensures_ite, ensures_pure]
    refine ⟨fun hclosed => .inr ⟨fun h => h.1 hclosed, .inl rfl⟩, fun hopen => ?_⟩
    refine ensures_mono (dispatch_traces s c) fun r s' h => ?_
    obtain ⟨hleaves, ⟨e, rfl⟩, htrace⟩ | ⟨hclean, hresult⟩ := h
    · exact .inl ⟨⟨hopen, hleaves⟩, ⟨e, rfl⟩, htrace⟩
    · cases r with
      | ok u => exact .inr ⟨fun h => hclean h.2, .inl rfl⟩
      | error e => exact .inr ⟨fun h => hclean h.2, hresult⟩
  unfold Ensures at hspec
  obtain ⟨hleaves, ⟨e, herror⟩, htrace⟩ | ⟨hclean, hresult⟩ := hspec
  · refine ⟨fun h => absurd (h e herror) htrace, fun h => ?_⟩
    obtain hclosed | hnot := h
    · exact absurd hclosed hleaves.1
    · exact absurd hleaves.2 hnot
  · refine ⟨fun _ => ?_, fun _ e herror => ?_⟩
    · by_cases hclosed : s.state = .closed
      · exact .inl hclosed
      · exact .inr fun h => hclean ⟨hclosed, h⟩
    · exact hresult.resolve_left fun hok => by cases herror.symm.trans hok

end Trace

/-- A client whose streams may take one octet each. -/
def narrowClient : WtSession :=
  runCalls (WtSession.client { WtConfig.default with initialMaxStreamDataUni := 1 } .default)
    [.initiate]

/-- WT_STREAM with two octets on the first stream of the server is rejected, and opens it. -/
theorem rejected_untouched_false :
    ¬ ∀ (role : Role) (config peerConfig : WtConfig) (s : WtSession),
      WtRun role config peerConfig s → ∀ (c : Capsule) (e : WtError),
        (handleCapsule c s).1 = .error e → Untouched s (handleCapsule c s).2 := by
  intro h
  have huntouched := h .client { WtConfig.default with initialMaxStreamDataUni := 1 } .default
    narrowClient (WtRun.init.runCalls _) (.wtStream 3 [0, 0] false)
    (.flowControlError "stream recv limit exceeded") (by decide +kernel)
  have hevents : (handleCapsule (.wtStream 3 [0, 0] false) narrowClient).2.events
      = [.streamOpened 3 false] := by decide +kernel
  rw [huntouched.2] at hevents
  exact absurd hevents (by decide +kernel)

end Http2.WebTransport
