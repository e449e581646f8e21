import Http2.WebTransport.Moves

/-! What the capsules that arrive do to a session. -/
namespace Http2.WebTransport

open Lib Lib.Prog WtSession

section Creation

variable {s : WtSession} {id : Nat} {bidirectional : Bool}

/-- Streams of the peer were created, and nothing else changed. -/
structure Creates (bidirectional : Bool) (inside : Nat → Prop) (s s' : WtSession) : Prop where
  acts : Acts s s'
  frame : ∃ streams notified events, s' = { s with
    toBook := { s.toBook with streams := streams, notified := notified }
    events := events }
  slot_inside : ∀ id, inside id → s.slot id = .unknown →
    s'.slot id = .live (s.peerStream id bidirectional)
  slot_known : ∀ id, s.slot id ≠ .unknown → s'.slot id = s.slot id
  slot_outside : ∀ id, ¬ inside id → s'.slot id = s.slot id

theorem Creates.refl (bidirectional : Bool) (s : WtSession) :
    Creates bidirectional (fun _ => False) s s :=
  ⟨.refl s, ⟨_, _, _, rfl⟩, fun _ h => h.elim, fun _ _ => rfl, fun _ _ => rfl⟩

theorem unknown_iff : ((s.stream? id).isNone = true ∧ s.isClosedId id = false) ↔
    s.slot id = .unknown := by
  rw [Book.slot_eq_unknown]
  simp only [Book.isClosedId, BoundedMap.contains, Option.isNone_iff_eq_none,
    Option.isSome_eq_false_iff]

theorem createPeerStream_spec (hpeer : s.isPeerInitiated id = true)
    (hbidi : StreamId.isBidirectional id = bidirectional)
    (haccept : s.flowControl.canAcceptStream id = true) (hunknown : s.slot id = .unknown)
    (hlower : ∀ lower < id, lower % 4 = id % 4 → s.slot lower ≠ .unknown) :
    Ensures (createPeerStream id bidirectional) s fun r s' =>
      r = .ok () ∧ Creates bidirectional (· = id) s s' := by
  subst hbidi
  simp only [createPeerStream, ensures_bind, ensures_get, ensures_updateBook, ensures_notify]
  refine ⟨trivial, ?_, ⟨_, _, _, rfl⟩, ?_, ?_, ?_⟩
  · exact .of_notify (.create s.toBook id hpeer haccept hunknown hlower) rfl rfl
  · rintro _ rfl -
    simp [Book.peerStream]
  · intro id' hknown
    have hne : id' ≠ id := by
      rintro rfl
      exact hknown hunknown
    simp [hne]
  · intro id' hne
    simp [hne]

theorem Creates.trans {s₁ s' : WtSession} {P Q : Nat → Prop} (h : Creates bidirectional P s s₁)
    (h' : Creates bidirectional Q s₁ s') : Creates bidirectional (fun id => P id ∨ Q id) s s' := by
  obtain ⟨ts, es, qs, hframe⟩ := h.frame
  obtain ⟨ts', es', qs', hframe'⟩ := h'.frame
  have hsame : ∀ id, s₁.peerStream id bidirectional = s.peerStream id bidirectional := by
    intro id
    rw [hframe]
    rfl
  refine ⟨h.acts.trans h'.acts, ⟨ts', es', qs', ?_⟩, ?_, ?_, ?_⟩
  · rw [hframe', hframe]
  · intro id hin hunknown
    by_cases hP : P id
    · have hlive := h.slot_inside id hP hunknown
      rw [h'.slot_known id (by rw [hlive]; exact Slot.live_ne_unknown), hlive]
    · have hstill : s₁.slot id = .unknown := (h.slot_outside id hP).trans hunknown
      rw [h'.slot_inside id (hin.resolve_left hP) hstill, hsame]
  · intro id hknown
    have hsame₁ := h.slot_known id hknown
    rw [h'.slot_known id (hsame₁ ▸ hknown), hsame₁]
  · intro id hout
    rw [h'.slot_outside id (fun h => hout (.inr h)), h.slot_outside id fun h => hout (.inl h)]

theorem Creates.congr {s' : WtSession} {P Q : Nat → Prop} (h : Creates bidirectional P s s')
    (hPQ : ∀ id, P id ↔ Q id) : Creates bidirectional Q s s' := by
  have hfun : P = Q := funext fun id => propext (hPQ id)
  exact hfun ▸ h

theorem createMissing_spec (n : Nat) (hpeer : s.isPeerInitiated id = true)
    (hbidi : StreamId.isBidirectional id = bidirectional)
    (haccept : ∀ i < n, s.flowControl.canAcceptStream (id + 4 * i) = true)
    (hlower : ∀ lower < id, lower % 4 = id % 4 → s.slot lower ≠ .unknown) :
    Ensures (createMissing bidirectional n id) s fun r s' =>
      r = .ok () ∧ Creates bidirectional (fun id' => ∃ i < n, id' = id + 4 * i) s s' := by
  induction n generalizing s id with
  | zero =>
    refine ⟨rfl, (Creates.refl bidirectional s).congr fun id' => ⟨False.elim, ?_⟩⟩
    rintro ⟨i, hi, -⟩
    exact absurd hi (Nat.not_lt_zero i)
  | succ n ih =>
    have hmod : (id + 4) % 4 = id % 4 := by omega
    -- the identifiers of the loop are the first one and those of the rest
    have hsplit : ∀ id', (id' = id ∨ ∃ i < n, id' = id + 4 + 4 * i) ↔
        ∃ i < n + 1, id' = id + 4 * i := by
      intro id'
      constructor
      · rintro (rfl | ⟨i, hi, rfl⟩)
        · exact ⟨0, by omega, by omega⟩
        · exact ⟨i + 1, by omega, by omega⟩
      · rintro ⟨i, hi, rfl⟩
        cases i with
        | zero => exact .inl rfl
        | succ i => exact .inr ⟨i, by omega, by omega⟩
    have hrest : ∀ s₁ : WtSession, Creates bidirectional (· = id) s s₁ → s₁.slot id ≠ .unknown →
        Ensures (createMissing bidirectional n (id + 4)) s₁ fun r s' =>
          r = .ok () ∧ Creates bidirectional (fun id' => ∃ i < n + 1, id' = id + 4 * i) s s' := by
      intro s₁ hcreates hnow
      obtain ⟨ts, es, qs, hframe⟩ := hcreates.frame
      have hpeer₁ : s₁.isPeerInitiated (id + 4) = true := by
        rw [isPeerInitiated_congr hmod, hframe]
        exact hpeer
      have hbidi₁ : StreamId.isBidirectional (id + 4) = bidirectional :=
        (isBidirectional_congr hmod).trans hbidi
      have haccept₁ : ∀ i < n, s₁.flowControl.canAcceptStream (id + 4 + 4 * i) = true := by
        intro i hi
        rw [hframe, Nat.add_assoc, Nat.add_comm 4 (4 * i)]
        exact haccept (i + 1) (by omega)
      refine ensures_mono (ih hpeer₁ hbidi₁ haccept₁ fun lower hlt htype => ?_) fun r s' h =>
        ⟨h.1, (hcreates.trans h.2).congr hsplit⟩
      by_cases hid : lower = id
      · rw [hid]
        exact hnow
      · have hknown := hlower lower (by omega) (by omega)
        rw [hcreates.slot_known lower hknown]
        exact hknown
    simp only [createMissing, ensures_bind, ensures_get, ensures_ite, unknown_iff]
    refine ⟨fun hunknown => ?_, fun hknown => ?_⟩
    · refine ensures_mono (createPeerStream_spec hpeer hbidi (haccept 0 (by omega)) hunknown hlower)
        fun r s₁ h => ?_
      obtain ⟨rfl, hcreates⟩ := h
      refine hrest s₁ hcreates ?_
      rw [hcreates.slot_inside id rfl hunknown]
      exact Slot.live_ne_unknown
    · refine hrest s ⟨.refl s, ⟨_, _, _, rfl⟩, ?_, fun _ _ => rfl, fun _ _ => rfl⟩ hknown
      rintro _ rfl hunknown
      exact absurd hunknown hknown

/-- `create_peer_streams_up_to` creates all that is missing, or refuses and creates nothing. -/
theorem createPeerStreamsUpTo_spec (s : WtSession) (hpeer : s.isPeerInitiated id = true)
    (hbidi : StreamId.isBidirectional id = bidirectional) :
    Ensures (createPeerStreamsUpTo id bidirectional) s fun r s' =>
      (s.flowControl.canAcceptStream id = false ∧
          r = .error (.flowControlError "peer exceeded stream limit") ∧ s' = s) ∨
        s.flowControl.canAcceptStream id = true ∧ r = .ok () ∧
          Creates bidirectional (fun id' => id' % 4 = id % 4 ∧ id' ≤ id) s s' := by
  simp only [createPeerStreamsUpTo, ensures_bind, ensures_get, ensures_require]
  refine ⟨fun haccept => ?_, fun haccept => .inl ⟨eq_false_of_ne_true haccept, trivial, trivial⟩⟩
  have hmod : id % 4 % 4 = id % 4 := Nat.mod_mod ..
  have hlt : id % 4 < 4 := Nat.mod_lt _ (by decide)
  rw [StreamId.and_three]
  refine ensures_mono (createMissing_spec (id / 4 + 1) ((isPeerInitiated_congr hmod).trans hpeer)
    ((isBidirectional_congr hmod).trans hbidi) (fun i hi => ?_) fun lower hlow htype => ?_)
    fun r s' h => .inr ⟨haccept, h.1, h.2.congr fun id' => ?_⟩
  · exact canAcceptStream_mono (by omega) (by omega) haccept
  · omega
  · constructor
    · rintro ⟨i, hi, rfl⟩
      omega
    · intro h
      exact ⟨id' / 4, by omega, by omega⟩

end Creation

/-! ## WT_STREAM -/

/-- The identifiers that come to exist with `id`. -/
def upTo (id id' : Nat) : Prop := id' % 4 = id % 4 ∧ id' ≤ id

/-- The record that takes the data of WT_STREAM: the one there is, or a new one. -/
def Book.streamFor (b : Book) (id : Nat) : WtStream :=
  (b.stream? id).getD (b.peerStream id (StreamId.isBidirectional id))

/-- WT_STREAM passes the checks before the flow control. -/
def Admits (b : Book) (id : Nat) (data : Bytes) (fin : Bool) : Prop :=
  b.isClosedId id = false ∧
    match b.stream? id with
    | some s =>
      ¬ (data = [] ∧ fin = false ∧ s.hasReceivedData = true) ∧
        (StreamId.isBidirectional id = true ∨ b.isPeerInitiated id = true)
    | none => b.isPeerInitiated id = true ∧ b.flowControl.canAcceptStream id = true

/-- The stream of WT_STREAM exists in `s₁`, and all that `s₁` has over `s` is new streams. -/
def Admitted (s : WtSession) (id : Nat) (s₁ : WtSession) : Prop :=
  (s.stream? id).isSome = true ∧ s₁ = s ∨
    s.slot id = .unknown ∧ Creates (StreamId.isBidirectional id) (upTo id) s s₁

section Data

variable {s s₁ : WtSession} {id : Nat} {data : Bytes} {fin : Bool}

theorem Admitted.acts (h : Admitted s id s₁) : Acts s s₁ := by
  obtain ⟨-, rfl⟩ | ⟨-, h⟩ := h
  · exact .refl _
  · exact h.acts

theorem Admitted.stream (h : Admitted s id s₁) : s₁.stream? id = some (s.streamFor id) := by
  obtain ⟨hsome, rfl⟩ | ⟨hunknown, h⟩ := h
  · obtain ⟨stream, hstream⟩ := Option.isSome_iff_exists.1 hsome
    simp [Book.streamFor, hstream]
  · have hlive := h.slot_inside id ⟨rfl, le_rfl⟩ hunknown
    rw [Book.slot_eq_live] at hlive
    rw [hlive]
    simp [Book.streamFor, (Book.slot_eq_unknown.1 hunknown).1]

theorem Admitted.flowControl (h : Admitted s id s₁) : s₁.flowControl = s.flowControl := by
  obtain ⟨-, rfl⟩ | ⟨-, h⟩ := h
  · rfl
  · obtain ⟨_, _, _, rfl⟩ := h.frame
    rfl

theorem admitStreamData_spec (s : WtSession) (id : Nat) (data : Bytes) (fin : Bool) :
    Ensures (admitStreamData id data fin) s fun r s₁ =>
      ¬ Admits s.toBook id data fin ∧ Refused s r s₁ ∨
        Admits s.toBook id data fin ∧ r = .ok () ∧ Admitted s id s₁ := by
  simp only [admitStreamData, ensures_bind, ensures_get, ensures_require]
  refine ⟨fun hclosed => ⟨fun hempty => ?_, fun hempty => ?_⟩, fun hclosed => ?_⟩
  · cases hstream : s.stream? id with
    | none =>
      simp only [Option.isNone_none, if_true, ensures_bind, ensures_require]
      refine ⟨fun hpeer => ?_, fun hpeer => .inl ⟨fun h => ?_, _, rfl, rfl⟩⟩
      · refine ensures_mono (createPeerStreamsUpTo_spec s hpeer rfl) fun r s₁ h => ?_
        obtain ⟨haccept, rfl, rfl⟩ | ⟨haccept, rfl, hcreates⟩ := h
        · refine .inl ⟨fun h => ?_, _, rfl, rfl⟩
          simp only [Admits, hstream] at h
          exact absurd (haccept.symm.trans h.2.2) Bool.false_ne_true
        · have hunknown : s.slot id = .unknown := unknown_iff.1 ⟨by simp [hstream], hclosed⟩
          refine .inr ⟨⟨hclosed, ?_⟩, rfl, .inr ⟨hunknown, hcreates⟩⟩
          simp only [hstream]
          exact ⟨hpeer, haccept⟩
      · simp only [Admits, hstream] at h
        exact hpeer h.2.1
    | some stream =>
      have hsome : (s.stream? id).isSome = true := by simp [hstream]
      simp only [hstream, Option.isNone_some, Option.any_some, true_and] at hempty
      simp only [Option.isNone_some, Bool.false_eq_true, if_false, ensures_require]
      refine ⟨fun hpart => .inr ⟨⟨hclosed, ?_⟩, trivial, .inl ⟨hsome, rfl⟩⟩,
        fun hpart => .inl ⟨fun h => ?_, _, rfl, rfl⟩⟩
      · simp only [hstream]
        exact ⟨hempty, hpart⟩
      · simp only [Admits, hstream] at h
        exact hpart h.2.2
  · refine .inl ⟨fun h => ?_, _, rfl, rfl⟩
    rw [not_not] at hempty
    obtain ⟨hnil, hknown, hfin, hdata⟩ := hempty
    obtain ⟨stream, hstream⟩ : ∃ stream, s.stream? id = some stream := by
      cases hstream : s.stream? id with
      | none => simp [hstream] at hknown
      | some stream => exact ⟨stream, rfl⟩
    simp only [Admits, hstream] at h
    simp only [hstream, Option.any_some] at hdata
    exact h.2.1 ⟨hnil, hfin, hdata⟩
  · exact .inl ⟨fun h => hclosed h.1, _, rfl, rfl⟩

/-- What `handle_stream_data` does: it refuses, it stops after it created streams, it stops after
the stream took the data, or it takes the data. -/
inductive DataOutcome (s : WtSession) (id : Nat) (data : Bytes) (fin : Bool) :
    WtResult Unit → WtSession → Prop
  | refused (e : WtError) (hadmits : ¬ Admits s.toBook id data fin) :
    DataOutcome s id data fin (.error e) s
  | streamFull (s₁ : WtSession) (e : WtError) (hadmits : Admits s.toBook id data fin)
    (hadmitted : Admitted s id s₁) (hrecv : (s.streamFor id).recvData data.length fin = .error e) :
    DataOutcome s id data fin (.error e) s₁
  | sessionFull (s₁ : WtSession) (e : WtError) (stream : WtStream)
    (hadmits : Admits s.toBook id data fin) (hadmitted : Admitted s id s₁)
    (hrecv : (s.streamFor id).recvData data.length fin = .ok stream)
    (hconsume : s.flowControl.consumeRecv data.length = .error e) :
    DataOutcome s id data fin (.error e)
      { s₁ with toBook := s₁.toBook.putStream id (noteData stream data) }
  | taken (s₁ : WtSession) (stream : WtStream) (fc : WtFlowControl)
    (hadmits : Admits s.toBook id data fin) (hadmitted : Admitted s id s₁)
    (hrecv : (s.streamFor id).recvData data.length fin = .ok stream)
    (hconsume : s.flowControl.consumeRecv data.length = .ok fc) :
    DataOutcome s id data fin (.ok ()) { s₁ with
      toBook := ((s₁.toBook.putStream id (noteData stream data)).setFlow fc).logEvent
        (.streamData id data fin)
      events := s₁.events ++ [.streamData id data fin] }

theorem putStream_putStream (b : Book) (id : Nat) (stream stream' : WtStream) :
    (b.putStream id stream).putStream id stream' = b.putStream id stream' := by
  simp [Book.putStream]

theorem handleStreamData_spec (s : WtSession) (id : Nat) (data : Bytes) (fin : Bool) :
    Ensures (handleStreamData id data fin) s (DataOutcome s id data fin) := by
  simp only [handleStreamData, ensures_bind]
  refine ensures_mono (admitStreamData_spec s id data fin) fun r s₁ h => ?_
  obtain ⟨hadmits, e, rfl, rfl⟩ | ⟨hadmits, rfl, hadmitted⟩ := h
  · exact .refused e hadmits
  · have hstream := hadmitted.stream
    have hfc := hadmitted.flowControl
    simp only [ensures_findStream, ensures_lift]
    refine ⟨fun stream hlive => ?_, fun hnone => ?_⟩
    · obtain rfl := Option.some.inj (hstream.symm.trans hlive)
      cases hrecv : (s.streamFor id).recvData data.length fin with
      | error e => exact .streamFull s₁ e hadmits hadmitted hrecv
      | ok stream =>
        simp only [ensures_updateBook]
        have hrest : Ensures (do
              let s ← get
              let fc ← lift (s.flowControl.consumeRecv data.length)
              update (·.setFlow fc)
              notify (.streamData id data fin))
            { s₁ with toBook := s₁.toBook.putStream id (noteData stream data) }
            (DataOutcome s id data fin) := by
          have hfc' : (s₁.toBook.putStream id (noteData stream data)).flowControl = s.flowControl :=
            hfc
          simp only [ensures_get, ensures_bind, ensures_lift, hfc']
          cases hconsume : s.flowControl.consumeRecv data.length with
          | error e => exact .sessionFull s₁ e stream hadmits hadmitted hrecv hconsume
          | ok fc => exact .taken s₁ stream fc hadmits hadmitted hrecv hconsume
        by_cases hdata : data ≠ []
        · -- the second record replaces the first
          simp only [noteData, if_pos hdata] at hrest
          rw [if_pos hdata, ensures_bind, ensures_updateBook, putStream_putStream]
          exact hrest
        · simp only [noteData, if_neg hdata] at hrest
          rw [if_neg hdata]
          exact hrest
    · cases hstream.symm.trans hnone

end Data

/-! ## WT_RESET_STREAM -/

/-- What `handle_capsule` does with WT_RESET_STREAM. -/
inductive ResetOutcome (s : WtSession) (id errorCode size : Nat) :
    WtResult Unit → WtSession → Prop
  | unknown (hnone : s.stream? id = none) :
    ResetOutcome s id errorCode size (.error ⟨.streamStateError, .resetUnknownStream id⟩) s
  | invalid (e : WtError) (stream : WtStream) (hlive : s.stream? id = some stream)
    (hbad : ¬ (stream.canRecv = true ∧ stream.hasRecvPart = true ∧ size = stream.recvOffset)) :
    ResetOutcome s id errorCode size (.error e) s
  | taken (stream : WtStream) (hlive : s.stream? id = some stream) (hcan : stream.canRecv = true)
    (hpart : stream.hasRecvPart = true) (hsize : size = stream.recvOffset) :
    ResetOutcome s id errorCode size (.ok ()) { s with
      toBook := (s.toBook.settle id stream.recvReset).logEvent (.streamReset id errorCode)
      events := s.events ++ [.streamReset id errorCode] }

theorem handleResetStream_spec (s : WtSession) (id errorCode size : Nat) :
    Ensures (handleResetStream id errorCode size) s (ResetOutcome s id errorCode size) := by
  simp only [handleResetStream, receivingStream, ensures_bind, ensures_get]
  cases hlive : s.stream? id with
  | none => exact .unknown hlive
  | some stream =>
    simp only [ensures_bind, ensures_require, ensures_pure, ensures_updateBook, ensures_notify]
    refine ⟨fun hstate => ⟨fun hsize => ?_, fun hsize => ?_⟩, fun hstate => ?_⟩
    · rw [Book.removeIfClosed_logEvent]
      exact .taken stream hlive hstate.1 hstate.2 hsize
    · exact .invalid _ stream hlive fun h => hsize h.2.2
    · exact .invalid _ stream hlive fun h => hstate ⟨h.1, h.2.1⟩

/-! ## WT_STOP_SENDING and WT_MAX_STREAM_DATA -/

/-- The checks that both capsules share. -/
def Concerns (b : Book) (id : Nat) : Prop :=
  b.isReceiveOnlyId id = false ∧ b.isUncreatedLocalId id = false ∧ b.stopSendingReceived id = false

/-- A stream of the peer that must be created may be. -/
def MayCreate (b : Book) (id : Nat) : Prop :=
  b.willCreateImplicitPeerBidiStream id = true → b.flowControl.canAcceptStream id = true

/-- The stream was created where that was due, and nothing else changed. -/
def Opened (s : WtSession) (id : Nat) (s₁ : WtSession) : Prop :=
  s.willCreateImplicitPeerBidiStream id = false ∧ s₁ = s ∨
    s.willCreateImplicitPeerBidiStream id = true ∧ Creates true (upTo id) s s₁

section Concern

variable {s s₁ : WtSession} {id : Nat}

theorem willCreate_iff : s.willCreateImplicitPeerBidiStream id = true ↔
    s.isPeerInitiated id = true ∧ StreamId.isBidirectional id = true ∧ s.slot id = .unknown := by
  rw [← unknown_iff]
  simp only [Book.willCreateImplicitPeerBidiStream, Bool.and_eq_true, Bool.not_eq_true', and_assoc]

theorem Opened.acts (h : Opened s id s₁) : Acts s s₁ := by
  obtain ⟨-, rfl⟩ | ⟨-, h⟩ := h
  · exact .refl _
  · exact h.acts

theorem Opened.frame (h : Opened s id s₁) : ∃ streams notified events, s₁ = { s with
    toBook := { s.toBook with streams := streams, notified := notified }
    events := events } := by
  obtain ⟨-, rfl⟩ | ⟨-, h⟩ := h
  · exact ⟨_, _, _, rfl⟩
  · exact h.frame

/-- After that a stream of the peer that may send is known. -/
theorem Opened.named (h : Opened s id s₁) (hconcerns : Concerns s.toBook id) :
    s₁.toBook.Named id := by
  obtain ⟨hsend, hcreated, -⟩ := hconcerns
  obtain ⟨hnot, rfl⟩ | ⟨hwill, h⟩ := h
  · refine ⟨hcreated, fun hpeer hunknown => ?_⟩
    have hbidi : StreamId.isBidirectional id = true := by
      have huni : StreamId.isUnidirectional id = false := by
        simpa [Book.isReceiveOnlyId, hpeer] using hsend
      rw [isUnidirectional_eq, decide_eq_false_iff_not, Nat.not_le] at huni
      rw [isBidirectional_eq, decide_eq_true huni]
    exact absurd (hnot.symm.trans (willCreate_iff.2 ⟨hpeer, hbidi, hunknown⟩)) Bool.false_ne_true
  · obtain ⟨-, -, hunknown⟩ := willCreate_iff.1 hwill
    have hlive := h.slot_inside id ⟨rfl, le_rfl⟩ hunknown
    obtain ⟨_, _, _, hframe⟩ := h.frame
    refine ⟨?_, fun _ => by rw [hlive]; exact Slot.live_ne_unknown⟩
    rw [hframe]
    exact hcreated

theorem createImplicitPeerBidiStream_spec (s : WtSession) (id : Nat) :
    Ensures (createImplicitPeerBidiStream id) s fun r s₁ =>
      ¬ MayCreate s.toBook id ∧ r = .error (.flowControlError "peer exceeded stream limit") ∧
          s₁ = s ∨
        MayCreate s.toBook id ∧ r = .ok () ∧ Opened s id s₁ := by
  simp only [createImplicitPeerBidiStream, ensures_bind, ensures_get, ensures_ite, ensures_pure]
  refine ⟨fun hwill => ?_, fun hnot => ?_⟩
  · obtain ⟨hpeer, hbidi, -⟩ := willCreate_iff.1 hwill
    refine ensures_mono (createPeerStreamsUpTo_spec s hpeer hbidi) fun r s₁ h => ?_
    obtain ⟨hrefuse, rfl, rfl⟩ | ⟨haccept, rfl, hcreates⟩ := h
    · exact .inl ⟨fun h => absurd (hrefuse.symm.trans (h hwill)) Bool.false_ne_true, rfl, rfl⟩
    · exact .inr ⟨fun _ => haccept, rfl, .inr ⟨hwill, hcreates⟩⟩
  · exact .inr ⟨fun hwill => absurd hwill hnot, trivial, .inl ⟨eq_false_of_ne_true hnot, rfl⟩⟩

theorem requireSender_spec (s : WtSession) (id : Nat) (receiveOnly uncreated stopped : String) :
    Ensures (requireSender id receiveOnly uncreated stopped) s fun r s' =>
      s' = s ∧ (¬ Concerns s.toBook id ∧ (∃ e, r = .error e) ∨
        Concerns s.toBook id ∧ r = .ok ()) := by
  simp only [requireSender, ensures_bind, ensures_get, ensures_require]
  refine ⟨fun h1 => ⟨fun h2 => ⟨fun h3 => ?_, fun h3 => ?_⟩, fun h2 => ?_⟩, fun h1 => ?_⟩
  · exact ⟨trivial, .inr ⟨⟨h1, h2, h3⟩, trivial⟩⟩
  · exact ⟨trivial, .inl ⟨fun h => h3 h.2.2, _, rfl⟩⟩
  · exact ⟨trivial, .inl ⟨fun h => h2 h.2.1, _, rfl⟩⟩
  · exact ⟨trivial, .inl ⟨fun h => h1 h.1, _, rfl⟩⟩

/-- What `handle_capsule` does with WT_STOP_SENDING: `s₁` has the stream, `s₂` the answer. -/
inductive StopOutcome (s : WtSession) (id errorCode : Nat) : WtResult Unit → WtSession → Prop
  | refused (e : WtError) (hbad : ¬ (Concerns s.toBook id ∧ MayCreate s.toBook id)) :
    StopOutcome s id errorCode (.error e) s
  | taken (s₁ s₂ : WtSession) (hconcerns : Concerns s.toBook id) (hopened : Opened s id s₁)
    (hanswer :
      (∀ stream, s₁.stream? id = some stream → stream.canSend = true →
          ¬ CanReset (recordStopSending s₁.toBook id) id errorCode) ∧
          s₂ = { s₁ with toBook := recordStopSending s₁.toBook id } ∨
        ∃ stream, s₁.stream? id = some stream ∧ errorCode ≤ maxApplicationErrorCode ∧
          stream.canSend = true ∧ stream.hasSendPart = true ∧
          s₂ = s₁.sends (.wtResetStream id errorCode stream.sendOffset)
            (Resets (recordStopSending s₁.toBook id) id errorCode stream.setStopSendingReceived)) :
    StopOutcome s id errorCode (.ok ()) { s₂ with
      toBook := s₂.toBook.logEvent (.stopSending id errorCode)
      events := s₂.events ++ [.stopSending id errorCode] }

theorem recordStopSending_stream? (b : Book) (id : Nat) :
    (recordStopSending b id).stream? id = (b.stream? id).map WtStream.setStopSendingReceived := by
  unfold recordStopSending
  cases hstream : b.stream? id with
  | none => exact hstream
  | some stream => simp [Book.stream?, Book.putStream]

theorem handleStopSending_spec (s : WtSession) (id errorCode : Nat) :
    Ensures (handleStopSending id errorCode) s (StopOutcome s id errorCode) := by
  simp only [handleStopSending, ensures_bind]
  refine ensures_mono (requireSender_spec s id _ _ _) fun r s' h => ?_
  obtain ⟨rfl, ⟨hbad, e, rfl⟩ | ⟨hconcerns, rfl⟩⟩ := h
  · exact .refused e fun h => hbad h.1
  refine ensures_mono (createImplicitPeerBidiStream_spec s' id) fun r s₁ h => ?_
  obtain ⟨hbad, rfl, rfl⟩ | ⟨hmay, rfl, hopened⟩ := h
  · exact .refused _ fun h => hbad h.2
  simp only [ensures_get, ensures_updateBook]
  have hrecord := recordStopSending_stream? s₁.toBook id
  cases hstream : s₁.stream? id with
  | none =>
    simp only [Option.any_none, Bool.false_eq_true, if_false, ensures_notify]
    refine .taken s₁ _ hconcerns hopened (.inl ⟨fun stream hlive => ?_, rfl⟩)
    cases hstream.symm.trans hlive
  | some stream =>
    rw [hstream] at hrecord
    cases hcan : stream.canSend with
    | false =>
      simp only [Option.any_some, hcan, Bool.false_eq_true, if_false, ensures_notify]
      refine .taken s₁ _ hconcerns hopened (.inl ⟨fun stream' hlive hcan' => ?_, rfl⟩)
      obtain rfl := Option.some.inj (hstream.symm.trans hlive)
      exact absurd (hcan.symm.trans hcan') Bool.false_ne_true
    | true =>
      simp only [Option.any_some, hcan, if_true, ensures_bind, ensures_attempt, ensures_notify]
      refine ensures_mono (WtSession.resetStream_spec _ id errorCode) fun r s₂ h => ?_
      obtain ⟨hcannot, e, rfl, rfl⟩ | ⟨hcode, rfl, stream', hlive, hcan', hpart, rfl⟩ := h
      · exact .taken s₁ _ hconcerns hopened (.inl ⟨fun _ _ _ => hcannot, rfl⟩)
      · obtain rfl := Option.some.inj (hrecord.symm.trans hlive)
        exact .taken s₁ _ hconcerns hopened
          (.inr ⟨stream, hstream, hcode, hcan, hpart, rfl⟩)

/-- WT_MAX_STREAM_DATA passes its checks. -/
def LimitGrows (b : Book) (id maximum : Nat) : Prop :=
  Concerns b id ∧ MayCreate b id ∧
    (b.willCreateImplicitPeerBidiStream id = true → b.initialSendMaxForPeerStream true < maximum) ∧
    match b.slot id with
    | .unknown => True
    | .live stream => stream.sendMax < maximum ∧ maximum ≤ Varint.maxValue
    | .closed last => last < maximum

/-- What `handle_capsule` does with WT_MAX_STREAM_DATA. No decoded capsule has a maximum that
makes it `overflow`. -/
inductive LimitOutcome (s : WtSession) (id maximum : Nat) : WtResult Unit → WtSession → Prop
  | refused (e : WtError) (hbad : ¬ LimitGrows s.toBook id maximum) :
    LimitOutcome s id maximum (.error e) s
  | overflow (s₁ : WtSession) (e : WtError) (hmax : Varint.maxValue < maximum)
    (hwill : s.willCreateImplicitPeerBidiStream id = true)
    (hgrows : LimitGrows s.toBook id maximum) (hcreates : Creates true (upTo id) s s₁) :
    LimitOutcome s id maximum (.error e) s₁
  | closed (last : Nat) (hconcerns : Concerns s.toBook id) (hslot : s.slot id = .closed last)
    (hlt : last < maximum) :
    LimitOutcome s id maximum (.ok ()) { s with
      toBook := { s.toBook with
        closedStreamSendMax := s.closedStreamSendMax.insert id maximum } }
  | live (s₁ : WtSession) (stream : WtStream) (hconcerns : Concerns s.toBook id)
    (hopened : Opened s id s₁) (hlive : s₁.stream? id = some stream)
    (hmax : maximum ≤ Varint.maxValue) (hlt : stream.sendMax < maximum) :
    LimitOutcome s id maximum (.ok ())
      { s₁ with toBook := s₁.toBook.putStream id { stream with sendMax := maximum } }
  | lost (hconcerns : Concerns s.toBook id) (hslot : s.slot id = .unknown)
    (hwill : s.willCreateImplicitPeerBidiStream id = false) :
    LimitOutcome s id maximum (.ok ()) s

/-- A live stream takes a limit that grows and fits, and no other. -/
theorem updateSendMax_cases (stream : WtStream) (maximum : Nat) :
    (∃ e, stream.updateSendMax maximum = .error e) ∧
        ¬ (stream.sendMax < maximum ∧ maximum ≤ Varint.maxValue) ∨
      stream.updateSendMax maximum = .ok { stream with sendMax := maximum } ∧
        stream.sendMax < maximum ∧ maximum ≤ Varint.maxValue := by
  unfold WtStream.updateSendMax
  by_cases hbig : maximum > Varint.maxValue
  · rw [if_pos hbig]
    exact .inl ⟨⟨_, rfl⟩, fun h => absurd h.2 (Nat.not_le.2 hbig)⟩
  · rw [if_neg hbig]
    by_cases hle : maximum ≤ stream.sendMax
    · rw [if_pos hle]
      exact .inl ⟨⟨_, rfl⟩, fun h => absurd h.1 (Nat.not_lt.2 hle)⟩
    · rw [if_neg hle]
      exact .inr ⟨rfl, Nat.lt_of_not_le hle, Nat.le_of_not_lt hbig⟩

/-- A check that is made in one case only. -/
theorem gated {p q P Q : Prop} (hpass : (p → q) → P) (hfail : ¬ (p → q) → Q) :
    (p → (q → P) ∧ (¬ q → Q)) ∧ (¬ p → P) := by
  refine ⟨fun hp => ⟨fun hq => hpass fun _ => hq, fun hq => hfail fun h => hq (h hp)⟩, fun hp => ?_⟩
  exact hpass fun h => absurd h hp

theorem handleMaxStreamData_spec (s : WtSession) (id maximum : Nat) :
    Ensures (handleMaxStreamData id maximum) s (LimitOutcome s id maximum) := by
  simp only [handleMaxStreamData, ensures_bind]
  refine ensures_mono (requireSender_spec s id _ _ _) fun r s' h => ?_
  obtain ⟨rfl, ⟨hbad, e, rfl⟩ | ⟨hconcerns, rfl⟩⟩ := h
  · exact .refused e fun h => hbad h.1
  simp only [ensures_get, ensures_ite, ensures_bind, ensures_require]
  refine gated (fun hinitial => ?_) fun hbad => .refused _ fun h => hbad h.2.2.1
  split
  · rename_i last hnone hlast
    have hslot : s'.slot id = .closed last := Book.slot_eq_closed.2 ⟨hnone, hlast⟩
    simp only [ensures_bind, ensures_require, ensures_updateBook]
    refine ⟨fun hlt => .closed last hconcerns hslot hlt, fun hlt => .refused _ fun h => ?_⟩
    have hlast' := h.2.2.2
    rw [hslot] at hlast'
    exact hlt hlast'
  · rename_i hother
    rw [ensures_bind]
    refine ensures_mono (createImplicitPeerBidiStream_spec s' id) fun r s₁ h => ?_
    obtain ⟨hbad, rfl, rfl⟩ | ⟨hmay, rfl, hopened⟩ := h
    · exact .refused _ fun h => hbad h.2.1
    simp only [ensures_bind, ensures_get]
    cases hstream : s₁.stream? id with
    | none =>
      obtain ⟨hnot, rfl⟩ | ⟨hwill, hcreates⟩ := hopened
      · refine .lost hconcerns (Book.slot_eq_unknown.2 ⟨hstream, ?_⟩) hnot
        cases hget : s₁.closedStreamSendMax.get id with
        | none => rfl
        | some last => exact absurd hget (hother last hstream)
      · have hlive := hcreates.slot_inside id ⟨rfl, le_rfl⟩ (willCreate_iff.1 hwill).2.2
        rw [Book.slot_eq_live] at hlive
        cases hstream.symm.trans hlive
    | some stream =>
      simp only [ensures_bind, ensures_lift]
      obtain ⟨⟨e, herror⟩, hbad⟩ | ⟨hok, hlt, hmax⟩ := updateSendMax_cases stream maximum
      · simp only [herror]
        obtain ⟨hnot, rfl⟩ | ⟨hwill, hcreates⟩ := hopened
        · refine .refused e fun h => ?_
          have hlive := h.2.2.2
          rw [Book.slot_eq_live.2 hstream] at hlive
          exact hbad hlive
        · have hunknown := (willCreate_iff.1 hwill).2.2
          have hlive := hcreates.slot_inside id ⟨rfl, le_rfl⟩ hunknown
          rw [Book.slot_eq_live, hstream] at hlive
          obtain rfl := Option.some.inj hlive
          have hlt : s'.initialSendMaxForPeerStream true < maximum := hinitial hwill
          refine .overflow s₁ e ?_ hwill ⟨hconcerns, hmay, hinitial, ?_⟩ hcreates
          · exact Nat.lt_of_not_le fun hle => hbad ⟨hlt, hle⟩
          · rw [hunknown]
            trivial
      · simp only [hok, ensures_updateBook]
        exact .live s₁ stream hconcerns hopened hstream hmax hlt

end Concern

/-! ## The limits of the session -/

theorem handleMaxData_spec (s : WtSession) (maximum : Nat) :
    Ensures (handleMaxData maximum) s fun r s' =>
      ¬ (maximum ≤ Varint.maxValue ∧ s.flowControl.sendMax < maximum) ∧ Refused s r s' ∨
        (maximum ≤ Varint.maxValue ∧ s.flowControl.sendMax < maximum) ∧ r = .ok () ∧
          s' = { s with toBook := s.toBook.setFlow { s.flowControl with sendMax := maximum } } := by
  simp only [handleMaxData, ensures_bind, ensures_get, ensures_lift, ensures_updateBook,
    WtFlowControl.updateSendMax]
  by_cases hbig : maximum > Varint.maxValue
  · simp only [hbig, if_true]
    exact .inl ⟨fun h => absurd h.1 (Nat.not_le.2 hbig), _, rfl, rfl⟩
  · simp only [hbig, if_false]
    by_cases hle : maximum ≤ s.flowControl.sendMax
    · simp only [hle, if_true]
      exact .inl ⟨fun h => absurd h.2 (Nat.not_lt.2 hle), _, rfl, rfl⟩
    · simp only [hle, if_false]
      exact .inr ⟨⟨Nat.le_of_not_lt hbig, Nat.lt_of_not_le hle⟩, trivial, trivial⟩

theorem handleMaxStreams_spec (s : WtSession) (maximum : Nat) (bidirectional : Bool) :
    Ensures (handleMaxStreams maximum bidirectional) s fun r s' =>
      ¬ (maximum ≤ maxStreamsLimit ∧ s.flowControl.maxStreamsRemote bidirectional < maximum) ∧
          Refused s r s' ∨
        (maximum ≤ maxStreamsLimit ∧ s.flowControl.maxStreamsRemote bidirectional < maximum) ∧
          r = .ok () ∧
          s' = { s with
            toBook := s.toBook.setFlow (raiseRemote s.flowControl maximum bidirectional) } := by
  simp only [handleMaxStreams, ensures_bind, ensures_get, ensures_lift, ensures_updateBook,
    WtFlowControl.updateMaxStreams, checkMaxStreamsIncrease]
  by_cases hbig : maximum > maxStreamsLimit
  · simp only [hbig, if_true, bind, Except.bind]
    exact .inl ⟨fun h => absurd h.1 (Nat.not_le.2 hbig), _, rfl, rfl⟩
  · simp only [hbig, if_false]
    by_cases hle : maximum ≤ s.flowControl.maxStreamsRemote bidirectional
    · simp only [hle, if_true, bind, Except.bind]
      exact .inl ⟨fun h => absurd h.2 (Nat.not_lt.2 hle), _, rfl, rfl⟩
    · simp only [hle, if_false, bind, Except.bind, pure, Except.pure]
      exact .inr ⟨⟨Nat.le_of_not_lt hbig, Nat.lt_of_not_le hle⟩, trivial, rfl⟩

end Http2.WebTransport
