import Http2.WebTransport.Calls

/-! What a closed session still does: it takes in what arrives and drops it, and six of the calls
that send forget to ask whether it is closed. -/
namespace Http2.WebTransport

open Lib Lib.Prog WtSession

/-- Nothing is added to what waits to be taken out, and the session is closed. -/
def Silent (s s' : WtSession) : Prop :=
  s'.state = .closed ∧ s'.outputBuffer <:+ s.outputBuffer ∧ s'.events <:+ s.events

/-- The calls without a guard on the session's state, when what they do check holds. -/
def Escapes (b : Book) : WtCall → Prop
  | .resetStream streamId errorCode => CanReset b streamId errorCode
  | .stopSending streamId errorCode => CanStop b streamId errorCode
  | .sendMaxData maximum => CanRaise b maximum
  | .growRecvWindow increment => CanRaise b (b.flowControl.recvMax + increment)
  | .sendMaxStreamData streamId maximum => CanRaiseStream b streamId maximum
  | .growStreamRecvWindow streamId increment =>
    ∃ stream, b.stream? streamId = some stream ∧
      CanRaiseStream b streamId (stream.recvMax + increment)
  | _ => False

/-- What a call does to a closed session. -/
def Keeps (call : WtCall) (s s' : WtSession) : Prop :=
  s'.state = .closed ∧ (Silent s s' ↔ ¬ Escapes s.toBook call)

section Closed

variable {s s' : WtSession}

theorem silent_refl (h : s.state = .closed) : Silent s s :=
  ⟨h, List.suffix_refl _, List.suffix_refl _⟩

theorem keeps_of_refused {α : Type} {call : WtCall} {r : WtResult α} (h : s.state = .closed)
    (hcannot : ¬ Escapes s.toBook call) (hrefused : Refused s r s') : Keeps call s s' := by
  obtain ⟨_, -, rfl⟩ := hrefused
  exact ⟨h, fun _ => hcannot, fun _ => silent_refl h⟩

/-- A capsule of a known type is never empty. -/
theorem encode_ne_nil_of_header {c : Capsule} {capsuleType : Nat} {rest : List Part}
    (hparts : c.parts = .varint capsuleType :: rest) (htype : capsuleType ≤ Varint.maxValue) :
    c.encode ≠ [] := by
  obtain ⟨first, tail, heq, -⟩ := Varint.bytes_spec htype
  simp [Capsule.encode, hparts, Part.bytes, heq]

/-- A capsule that goes out breaks the silence. -/
theorem keeps_of_sends {call : WtCall} {c : Capsule} {b : Book} {capsuleType : Nat}
    {rest : List Part} (h : s.state = .closed) (hcan : Escapes s.toBook call)
    (hparts : c.parts = .varint capsuleType :: rest) (htype : capsuleType ≤ Varint.maxValue) :
    Keeps call s (s.sends c b) := by
  refine ⟨h, fun hsilent => ?_, fun hcannot => absurd hcan hcannot⟩
  have hlen := hsilent.2.1.length_le
  have hpos := List.length_pos_iff.2 (encode_ne_nil_of_header hparts htype)
  simp only [sends, List.length_append] at hlen
  omega

/-- Capsules that reach a closed session are dropped. -/
theorem handleCapsule_closed (h : s.state = .closed) (c : Capsule) : handleCapsule c s = (.ok (), s) := by
  have hens : Ensures (handleCapsule c) s fun r s' => r = .ok () ∧ s' = s := by
    simp only [handleCapsule, ensures_bind, ensures_get, h, if_true, ensures_pure]
    exact ⟨trivial, trivial⟩
  exact Prod.ext hens.1 hens.2

theorem processLoop_closed (n : Nat) (h : s.state = .closed) :
    Ensures (processLoop n) s fun _ s' =>
      s'.state = .closed ∧ s'.outputBuffer = s.outputBuffer ∧ s'.events = s.events := by
  induction n generalizing s with
  | zero => exact ⟨h, rfl, rfl⟩
  | succ n ih =>
    simp only [processLoop, ensures_bind, ensures_get, ensures_lift]
    cases s.capsuleDecoder.decode with
    | error e => exact ⟨h, trivial, trivial⟩
    | ok found =>
      cases found with
      | none => exact ⟨h, rfl, rfl⟩
      | some found =>
        simp only [ensures_bind, ensures_modify]
        have hsame := @handleCapsule_closed { s with capsuleDecoder := found.2 } h found.1
        unfold Ensures
        simp only [hsame]
        exact @ih { s with capsuleDecoder := found.2 } h

theorem keeps_of_silent {call : WtCall} (hcannot : ¬ Escapes s.toBook call)
    (hsilent : Silent s s') : Keeps call s s' :=
  ⟨hsilent.1, fun _ => hcannot, fun _ => hsilent⟩

theorem feed_closed (h : s.state = .closed) (data : Bytes) :
    Ensures (feed data) s fun _ s' => Silent s s' := by
  simp only [feed, ensures_bind, ensures_get, ensures_lift]
  cases s.capsuleDecoder.feed data with
  | error e => exact silent_refl h
  | ok decoder => exact ⟨h, List.suffix_refl _, List.suffix_refl _⟩

theorem pollOutput_closed (h : s.state = .closed) :
    Ensures pollOutput s fun _ s' => Silent s s' := by
  simp only [pollOutput, ensures_bind, ensures_get, ensures_ite, ensures_pure, ensures_modify]
  exact ⟨fun _ => silent_refl h, fun _ => ⟨h, List.nil_suffix, List.suffix_refl _⟩⟩

theorem pollEvent_closed (h : s.state = .closed) :
    Ensures pollEvent s fun _ s' => Silent s s' := by
  simp only [pollEvent, ensures_bind, ensures_get]
  cases hevents : s.events with
  | nil => exact silent_refl h
  | cons event events =>
    have hsuffix : events <:+ s.events := hevents ▸ List.suffix_cons ..
    simp only [ensures_bind, ensures_modify]
    split
    · exact ⟨h, List.suffix_refl _, hsuffix⟩
    · exact ⟨h, List.suffix_refl _, hsuffix⟩

/-- No guarded call gets past its guard. -/
theorem not_open_of_closed (h : s.state = .closed) : ¬ (s.state = .active ∨ s.state = .draining) := by
  rw [h]
  decide

/-- A call on a closed session keeps it closed, and adds something exactly if it escapes. -/
theorem exec_closed (h : s.state = .closed) (call : WtCall) :
    Ensures call.exec s fun _ s' => Keeps call s s' := by
  have hnot := not_open_of_closed h
  cases call with
  | initiate =>
    refine ensures_return.2 (ensures_mono (initiate_spec s) fun r s' hspec => ?_)
    obtain hrefused | ⟨hinitial, -⟩ := hspec
    · exact keeps_of_refused h id hrefused
    · cases h.symm.trans hinitial
  | feed data =>
    exact ensures_return.2 (ensures_mono (feed_closed h data) fun r s' hs =>
      keeps_of_silent id hs)
  | process =>
    refine ensures_return.2 ?_
    simp only [WtSession.process, ensures_bind, ensures_get]
    refine ensures_mono (processLoop_closed _ h) fun r s' hspec => ?_
    obtain ⟨hstate, hout, hevents⟩ := hspec
    exact keeps_of_silent id ⟨hstate, hout ▸ List.suffix_refl _, hevents ▸ List.suffix_refl _⟩
  | pollOutput =>
    exact ensures_return.2 (ensures_mono (pollOutput_closed h) fun r s' hs =>
      keeps_of_silent id hs)
  | pollEvent =>
    exact ensures_return.2 (ensures_mono (pollEvent_closed h) fun r s' hs =>
      keeps_of_silent id hs)
  | openBidiStream | openUniStream =>
    refine ensures_return.2 (ensures_mono (openStream_spec s _) fun r s' hspec => ?_)
    obtain hrefused | ⟨hopen, -⟩ := hspec
    · exact keeps_of_refused h id hrefused
    · exact absurd hopen hnot
  | sendStreamData streamId data fin =>
    refine ensures_return.2 ?_
    simp only [WtSession.sendStreamData, ensures_bind, ensures_requireOpen]
    exact ⟨fun hopen => absurd hopen hnot, fun _ => keeps_of_silent id (silent_refl h)⟩
  | resetStream streamId errorCode =>
    refine ensures_return.2 (ensures_mono (WtSession.resetStream_spec s streamId errorCode) ?_)
    rintro r s' (⟨hcannot, hrefused⟩ | ⟨hcode, -, stream, hlive, hcan, hpart, rfl⟩)
    · exact keeps_of_refused h hcannot hrefused
    · exact keeps_of_sends h ⟨hcode, stream, hlive, hcan, hpart⟩ rfl (by decide)
  | stopSending streamId errorCode =>
    refine ensures_return.2 (ensures_mono (stopSending_spec s streamId errorCode) ?_)
    rintro r s' (⟨hcannot, hrefused⟩ | ⟨hcode, -, stream, hlive, hpart, hfirst, hrecv, rfl⟩)
    · exact keeps_of_refused h hcannot hrefused
    · exact keeps_of_sends h ⟨hcode, stream, hlive, hpart, hfirst, hrecv⟩ rfl (by decide)
  | sendDatagram data =>
    refine ensures_return.2 (ensures_mono (sendDatagram_spec s data) fun r s' hspec => ?_)
    obtain hrefused | ⟨hopen, -⟩ := hspec
    · exact keeps_of_refused h id hrefused
    · exact absurd hopen hnot
  | close errorCode reason =>
    refine ensures_return.2 (ensures_mono (close_spec s errorCode reason) fun r s' hspec => ?_)
    obtain ⟨-, hrefused⟩ | ⟨hopen, -⟩ := hspec
    · exact keeps_of_refused h id hrefused
    · exact absurd h hopen
  | sendMaxData maximum =>
    refine ensures_return.2 (ensures_mono (sendMaxData_spec s maximum) ?_)
    rintro r s' (⟨hcannot, hrefused⟩ | ⟨hcan, -, rfl⟩)
    · exact keeps_of_refused h hcannot hrefused
    · exact keeps_of_sends h hcan rfl (by decide)
  | sendMaxStreamData streamId maximum =>
    refine ensures_return.2 (ensures_mono (sendMaxStreamData_spec s streamId maximum) ?_)
    rintro r s' (⟨hcannot, hrefused⟩ | ⟨hmax, -, stream, hlive, hpart, hstop, hrecv, hlt, rfl⟩)
    · exact keeps_of_refused h hcannot hrefused
    · exact keeps_of_sends h ⟨hmax, stream, hlive, hpart, hstop, hrecv, hlt⟩ rfl (by decide)
  | sendMaxStreams maximum bidirectional =>
    refine ensures_return.2 (ensures_mono (sendMaxStreams_spec s maximum bidirectional)
      fun r s' hspec => ?_)
    obtain hrefused | ⟨hopen, -⟩ := hspec
    · exact keeps_of_refused h id hrefused
    · exact absurd hopen hnot
  | growRecvWindow increment =>
    refine ensures_return.2 (ensures_mono (growRecvWindow_spec s increment) ?_)
    rintro r s' (⟨hcannot, hrefused⟩ | ⟨hcan, -, rfl⟩)
    · exact keeps_of_refused h hcannot hrefused
    · exact keeps_of_sends h hcan rfl (by decide)
  | growStreamRecvWindow streamId increment =>
    refine ensures_return.2 (ensures_mono (growStreamRecvWindow_spec s streamId increment) ?_)
    rintro r s' (⟨hcannot, hrefused⟩ |
      ⟨-, stream, maximum, hlive, hpart, hstop, hrecv, hlt, rfl, hmax, rfl⟩)
    · refine keeps_of_refused h ?_ hrefused
      rintro ⟨stream, hlive, hcan⟩
      exact hcannot stream hlive hcan
    · exact keeps_of_sends h ⟨stream, hlive, hmax, stream, hlive, hpart, hstop, hrecv, hlt⟩ rfl
        (by decide)
  | growMaxStreams increment bidirectional =>
    refine ensures_return.2 (ensures_mono (growMaxStreams_spec s increment bidirectional)
      fun r s' hspec => ?_)
    obtain hrefused | ⟨hopen, -⟩ := hspec
    · exact keeps_of_refused h id hrefused
    · exact absurd hopen hnot
  | drain =>
    refine ensures_return.2 (ensures_mono (drain_spec s) fun r s' hspec => ?_)
    obtain hrefused | ⟨hactive, -⟩ := hspec
    · exact keeps_of_refused h id hrefused
    · exact absurd (.inl hactive) hnot

theorem closed_runCalls (h : s.state = .closed) (calls : List WtCall) :
    (runCalls s calls).state = .closed := by
  induction calls generalizing s with
  | nil => exact h
  | cons call calls ih => exact ih (exec_closed h call).1

end Closed

/-- The calls made on a closed session stay silent exactly as far as none of them is one of the six
that forget to ask, with checks of its own that hold. -/
theorem closed_silent_iff {s : WtSession} (h : s.state = .closed) (calls : List WtCall) :
    (∀ before call after, calls = before ++ call :: after →
        Silent (runCalls s before) (call.exec (runCalls s before)).2) ↔
      ∀ before call after, calls = before ++ call :: after →
        ¬ Escapes (runCalls s before).toBook call := by
  have hstep : ∀ before call,
      Silent (runCalls s before) (call.exec (runCalls s before)).2 ↔
        ¬ Escapes (runCalls s before).toBook call :=
    fun before call => (exec_closed (closed_runCalls h before) call).2
  constructor
  · intro hsilent before call after heq
    exact (hstep before call).1 (hsilent before call after heq)
  · intro hquiet before call after heq
    exact (hstep before call).2 (hquiet before call after heq)

/-- A client that closed its session at once. -/
def closedClient : WtSession :=
  runCalls (WtSession.client .default .default) [.initiate, .close 0 ""]

theorem closed_silent_iff_drain : closedClient.state = .closed ∧
    ((∀ before call after, [WtCall.drain, .growRecvWindow 0] = before ++ call :: after →
        Silent (runCalls closedClient before) (call.exec (runCalls closedClient before)).2) ↔
      ∀ before call after, [WtCall.drain, .growRecvWindow 0] = before ++ call :: after →
        ¬ Escapes (runCalls closedClient before).toBook call) :=
  ⟨by decide +kernel, closed_silent_iff (by decide +kernel) _⟩

/-- A closed session still announces more room. -/
theorem closed_silent_false :
    ¬ ∀ (role : Role) (config peerConfig : WtConfig) (s : WtSession),
      WtRun role config peerConfig s → s.state = .closed → ∀ call : WtCall,
        Silent s (call.exec s).2 := by
  intro h
  have hclosed : closedClient.state = .closed := by decide +kernel
  have hsilent := h .client .default .default closedClient (WtRun.init.runCalls _) hclosed
    (.sendMaxData 2000000)
  have hescapes : Escapes closedClient.toBook (.sendMaxData 2000000) := by
    refine ⟨by decide, ?_⟩
    decide +kernel
  exact (exec_closed hclosed _).2.1 hsilent hescapes

end Http2.WebTransport
