import Http2.Connection.Admission

/-! GOAWAY. The connection keeps what it knows of either GOAWAY in its one state, so the second one
hides the first. -/
namespace Http2

open Hpack Lib Lib.Prog Connection

namespace Goaway

/-- A GOAWAY of the peer was handled. -/
def Received (c : Core) : Prop :=
  ∃ lastStreamId errorCode debugData,
    Item.event (.goawayReceived lastStreamId errorCode debugData) ∈ c.trace

/-- The last stream ids of the GOAWAYs that were sent, most recent first. -/
def sentIds (trace : List Item) : List Nat :=
  trace.filterMap fun i =>
    match i with
    | .sent (.goaway f) => some f.lastStreamId
    | _ => none

/-- What GOAWAY asks of a connection and of everything that may follow. -/
structure Permanent (T : Terms) (c : Connection) : Prop where
  /-- No request is begun once the peer has sent GOAWAY. -/
  received : Received c.toCore → ∀ headers endStream,
    T.api c.toCore (.startStream headers endStream) →
      ∀ v, ((Call.startStream headers endStream).exec c).1 ≠ .ok v
  /-- After a GOAWAY of our own, no message of a stream that is new and beyond it. -/
  sent : ∀ errorCode debugData, T.api c.toCore (.sendGoaway errorCode debugData) →
    let c₁ := ((Call.sendGoaway errorCode debugData).exec c).2
    ∃ n, c₁.trace = .sent (.goaway ⟨n, errorCode.asU32, debugData⟩) :: c.trace ∧
      ∀ later c₂, RunOf T c₁ later c₂ → ∀ new, c₂.trace = new ++ c₁.trace →
        ∀ sid headers endStream protocol,
          Item.event (.headersReceived sid headers endStream protocol) ∈ new →
            n < sid → (c.stream? sid).isSome = true
  ordered : (sentIds c.trace).Pairwise (· ≤ ·)

/-- Neither GOAWAY that is taken comes after the other. In `GoawaySent`, no block ends whose stream is
neither live nor among the closed ones, and no request is granted. -/
def terms : Terms where
  frame c f :=
    match f with
    | .goaway f => c.Takes (.goaway f) → c.state ≠ .goawaySent
    | .continuation f => c.state = .goawaySent → c.Takes (.continuation f) → f.endHeaders = true →
        c.Used f.streamId
    | _ => True
  refusal _ _ := True
  api c k :=
    match k with
    | .sendGoaway _ _ => c.state ≠ .goawayReceived
    | .startStream headers _ => c.state = .goawaySent → ¬ c.Grants headers
    | _ => True

instance (c : Core) : (f : Frame) → Decidable (terms.frame c f)
  | .goaway f => inferInstanceAs (Decidable (c.Takes (.goaway f) → c.state ≠ .goawaySent))
  | .continuation f => inferInstanceAs (Decidable (c.state = .goawaySent → c.Takes (.continuation f) →
      f.endHeaders = true → _))
  | .data _ | .headers _ | .priority _ _ | .rstStream _ _ | .settings _ | .pushPromise _ | .ping _ _
  | .windowUpdate _ _ | .priorityUpdate _ _ | .unknown _ _ => inferInstanceAs (Decidable True)

instance (c : Core) (sid : Nat) : Decidable (terms.refusal c sid) := inferInstanceAs (Decidable True)

instance (c : Core) : (k : Call) → Decidable (terms.api c k)
  | .sendGoaway _ _ => inferInstanceAs (Decidable (c.state ≠ .goawayReceived))
  | .startStream headers _ => inferInstanceAs (Decidable (c.state = .goawaySent → ¬ c.Grants headers))
  | .initiate | .feed _ | .markPrefaceReceived | .markPrefaceSent | .sendSettings | .process _
  | .pollEvent | .pollOutput | .sendResponse _ _ _ | .sendTrailers _ _ | .sendData _ _ _
  | .resetStream _ _ | .sendPing _ | .sendWindowUpdate _ _ => inferInstanceAs (Decidable True)

/-! ## After the peer's GOAWAY -/

theorem received_state {c d : Core} {l : Label} (h : Change c l d) (hd : Received d) :
    Received c ∨ d.state = .goawayReceived := by
  obtain ⟨last, code, data, hin⟩ := hd
  obtain ⟨f, rfl⟩ | hcause | hin := h.extends.mem hin
  · cases h with
    | step hstep =>
      cases hstep with
      | calm hcalm =>
        cases hcalm with
        | receive _ hinert => cases hinert
        | peerGoaway => exact .inr rfl
        | credit _ _ hl => obtain hl | hl := hl <;> cases hl
      | wake hwake => cases hwake
    | fault hfault =>
      cases hfault with
      | refused => exact .inl ⟨last, code, data, by simpa using hin⟩
  · cases l <;> simp [Label.cause] at hcause
  · exact .inl ⟨last, code, data, hin⟩

/-- The state that a handled GOAWAY leaves stays. -/
theorem settles_received {c d : Core} (h : Settles terms c d)
    (hc : Received c → c.state = .goawayReceived) (hd : Received d) : d.state = .goawayReceived := by
  cases h with
  | change hl hchange =>
    obtain hreceived | hstate := received_state hchange hd
    · have hc := hc hreceived
      obtain hsame | ⟨hwaiting, _⟩ | ⟨_, _, hstate⟩ | ⟨_, _, rfl, _⟩ := hchange.state
      · exact hsame.trans hc
      · cases hc.symm.trans hwaiting
      · exact hstate
      · exact absurd hc hl.2
    · exact hstate
  | refuse | overrun =>
    obtain ⟨last, code, data, hin⟩ := hd
    exact hc ⟨last, code, data, by simpa using hin⟩

/-! ## After our own GOAWAY -/

/-- In `GoawaySent` no record is created. -/
theorem begins_live {c : Core} {l : Label} {sid : Nat} (h : Begins c l sid)
    (hl : terms.taken.Meets c l) (hstate : c.state = .goawaySent) :
    (c.stream? sid).isSome = true := by
  cases h with
  | request headers endStream => exact absurd (hl.1 headers endStream rfl) (hl.2 hstate)
  | whole f _ hadmits _ hclosed =>
    obtain hin | hlive | ⟨_, hother⟩ := hadmits.2
    · cases hclosed.symm.trans hin
    · exact hlive
    · exact absurd hstate hother
  | last f _ hlast hclosed =>
    obtain hlive | hin := hl.2 hstate hl.1 hlast
    · exact hlive
    · cases hclosed.symm.trans hin

/-- What holds from a GOAWAY of our own on: `live` are the streams there were. -/
structure Shut (live : Nat → Prop) (trace : List Item) (c : Core) : Prop where
  state : c.state = .goawaySent
  streams : ∀ sid, (c.stream? sid).isSome = true → live sid
  events : ∃ new, c.trace = new ++ trace ∧ ∀ sid headers endStream protocol,
    Item.event (.headersReceived sid headers endStream protocol) ∈ new → live sid

theorem change_shut {live : Nat → Prop} {trace : List Item} {c d : Core} {l : Label}
    (h : Shut live trace c) (hl : terms.taken.Meets c l) (hchange : Change c l d) :
    Shut live trace d where
  state := by
    obtain hsame | ⟨hwaiting, _⟩ | ⟨_, rfl, _⟩ | ⟨_, _, _, hstate⟩ := hchange.state
    · exact hsame.trans h.state
    · cases h.state.symm.trans hwaiting
    · exact absurd h.state (hl.2 hl.1)
    · exact hstate
  streams := by
    intro sid hlive
    obtain hlive | hbegins := hchange.touches.live hlive
    · exact h.streams sid hlive
    · exact h.streams sid (begins_live hbegins hl h.state)
  events := by
    obtain ⟨older, holder, hevents⟩ := h.events
    obtain ⟨new, hnew, hrecords⟩ := hchange.extends
    refine ⟨new ++ (l.cause ++ older), by simp [hnew, holder], fun sid headers endStream protocol hin => ?_⟩
    rw [List.mem_append, List.mem_append] at hin
    obtain hin | hin | hin := hin
    · obtain ⟨hbegins, _⟩ := hrecords _ hin
      exact h.streams sid (begins_live hbegins hl h.state)
    · cases l <;> simp [Label.cause] at hin
    · exact hevents sid headers endStream protocol hin

/-- A frame is recorded, and nothing else that counts changes. -/
theorem Shut.log {live : Nat → Prop} {trace : List Item} {c : Core} (h : Shut live trace c) (f : Frame) :
    Shut live trace (c.log (.received f)) where
  state := h.state
  streams := h.streams
  events := by
    obtain ⟨new, hnew, hevents⟩ := h.events
    refine ⟨.received f :: new, by simp [hnew], fun sid headers endStream protocol hin => ?_⟩
    exact hevents sid headers endStream protocol (by simpa using hin)

theorem settles_shut {live : Nat → Prop} {trace : List Item} {c d : Core} (h : Shut live trace c)
    (hsettles : Settles terms c d) : Shut live trace d := by
  cases hsettles with
  | change hl hchange => exact change_shut h hl hchange
  | refuse f => exact h.log f
  | overrun f =>
    obtain ⟨hstate, hstreams, hevents⟩ := h.log (.continuation f)
    exact ⟨hstate, hstreams, hevents⟩

/-! ## The ids that are sent -/

theorem mem_sentIds {trace : List Item} {n : Nat} :
    n ∈ sentIds trace ↔ ∃ f : GoawayFrame, Item.sent (.goaway f) ∈ trace ∧ f.lastStreamId = n := by
  simp only [sentIds, List.mem_filterMap]
  constructor
  · rintro ⟨i, hi, hn⟩
    split at hn
    · exact ⟨_, hi, Option.some.inj hn⟩
    · cases hn
  · rintro ⟨f, hf, rfl⟩
    exact ⟨_, hf, rfl⟩

theorem sentIds_append (new trace : List Item) :
    sentIds (new ++ trace) = sentIds new ++ sentIds trace := List.filterMap_append

/-- The ids sent so far come in order, and the connection remembers the last of them. -/
structure Ordered (c : Core) : Prop where
  pairwise : (sentIds c.trace).Pairwise (· ≤ ·)
  last : ∀ n ∈ sentIds c.trace, ∃ m, c.lastSentGoawayStreamId = some m ∧ m ≤ n

theorem change_goaway {c d : Core} {errorCode : ErrorCode} {debugData : Bytes}
    (h : Change c (.api (.sendGoaway errorCode debugData)) d) :
    d.trace = .sent (.goaway ⟨c.goawayStreamId, errorCode.asU32, debugData⟩) :: c.trace ∧
      d.lastSentGoawayStreamId = some c.goawayStreamId := by
  cases h with
  | step hstep =>
    cases hstep with
    | calm hcalm =>
      cases hcalm with
      | goaway => exact ⟨rfl, rfl⟩
      | announce _ hk => obtain hk | hk := hk <;> cases hk
      | credit _ _ hl => obtain hl | hl := hl <;> cases hl
  | fault hfault => cases hfault

theorem goawayStreamId_le {c : Core} {m : Nat} (h : c.lastSentGoawayStreamId = some m) :
    c.goawayStreamId ≤ m := by
  simp only [Core.goawayStreamId, h]
  exact Nat.min_le_right _ _

theorem change_ordered {c d : Core} {l : Label} (h : Ordered c) (hchange : Change c l d) :
    Ordered d := by
  by_cases hl : ∃ errorCode debugData, l = .api (.sendGoaway errorCode debugData)
  · obtain ⟨errorCode, debugData, rfl⟩ := hl
    obtain ⟨htrace, hlast⟩ := change_goaway hchange
    have hids : sentIds d.trace = c.goawayStreamId :: sentIds c.trace := by
      rw [htrace]
      rfl
    have hle : ∀ n ∈ sentIds c.trace, c.goawayStreamId ≤ n := by
      intro n hn
      obtain ⟨m, hm, hmn⟩ := h.last n hn
      exact (goawayStreamId_le hm).trans hmn
    refine ⟨?_, fun n hn => ⟨_, hlast, ?_⟩⟩
    · rw [hids]
      exact List.pairwise_cons.2 ⟨hle, h.pairwise⟩
    · rw [hids] at hn
      obtain rfl | hn := List.mem_cons.1 hn
      · exact Nat.le_refl _
      · exact hle n hn
  · obtain hsame | hgoaway := hchange.lastSentGoawayStreamId
    · obtain ⟨new, hnew, hrecords⟩ := hchange.extends
      have hnone : sentIds new = [] := by
        apply List.eq_nil_iff_forall_not_mem.2
        intro n hn
        obtain ⟨f, hf, _⟩ := mem_sentIds.1 hn
        obtain ⟨errorCode, debugData, hgoaway, _⟩ := hrecords _ hf
        exact hl ⟨errorCode, debugData, hgoaway⟩
      have hcause : sentIds l.cause = [] := by cases l <;> rfl
      have hids : sentIds d.trace = sentIds c.trace := by
        rw [hnew, sentIds_append, sentIds_append, hnone, hcause, List.nil_append, List.nil_append]
      exact ⟨hids ▸ h.pairwise, by rw [hids, hsame]; exact h.last⟩
    · exact absurd hgoaway hl

theorem evolves_ordered {T : Terms} {role : Role} {limits : Limits} {c : Core}
    (h : Evolves T (Core.new role limits) c) : Ordered c := by
  induction h with
  | refl => exact ⟨.nil, fun _ hn => by cases hn⟩
  | tail _ hchange ih =>
    obtain ⟨l, _, hchange⟩ := hchange
    exact change_ordered ih hchange

/-! ## The law -/

theorem startStream_refused {c : Connection} (h : c.state = .goawayReceived)
    (headers : List HeaderField) (endStream : Bool) (v : Value) :
    ((Call.startStream headers endStream).exec c).1 ≠ .ok v := by
  have hexec : Ensures (Call.startStream headers endStream).exec c fun r _ => r ≠ .ok v := by
    refine ensures_map (startStream_spec headers endStream c) ?_ fun _ _ _ => by simp
    rintro _ _ ⟨_, hstart⟩
    exact absurd h (start_checked hstart).2.1
  exact hexec

/-- `send_goaway` does not fail. -/
theorem sendGoaway_exec (c : Connection) (errorCode : ErrorCode) (debugData : Bytes) :
    ((Call.sendGoaway errorCode debugData).exec c).2.toCore =
      { c.toCore.log (.sent (.goaway ⟨c.goawayStreamId, errorCode.asU32, debugData⟩)) with
        lastSentGoawayStreamId := some c.goawayStreamId
        state := .goawaySent } := rfl

theorem permanent {role : Role} {limits : Limits} {history : List Record} {c : Connection}
    (h : RunOf terms (Connection.new role limits) history c) : Permanent terms c := by
  have ht := run_tidy h
  refine ⟨fun hreceived headers endStream _ v => ?_, fun errorCode debugData hapi => ?_, ?_⟩
  · have hstate : Received c.toCore → c.state = .goawayReceived := by
      refine settles_invariant (Tidy.new role limits) ?_ (fun _ _ _ hc hstep => settles_received hstep hc)
        (run_settles h)
      rintro ⟨_, _, _, hin⟩
      cases hin
    exact startStream_refused (hstate hreceived) headers endStream v
  · refine ⟨c.goawayStreamId, rfl, fun later c₂ hlater new hnew sid headers endStream protocol hin _ => ?_⟩
    have hcore := sendGoaway_exec c errorCode debugData
    let live := fun sid => (c.stream? sid).isSome = true
    have hshut : Shut live ((Call.sendGoaway errorCode debugData).exec c).2.trace
        ((Call.sendGoaway errorCode debugData).exec c).2.toCore :=
      ⟨rfl, fun _ hlive => hlive, [], rfl, by simp⟩
    have ht₁ : Tidy ((Call.sendGoaway errorCode debugData).exec c).2.toCore :=
      ht.congr rfl ⟨rfl, rfl, rfl, rfl, Nat.le_refl _⟩
    obtain ⟨new', hnew', hevents⟩ := (settles_invariant ht₁ hshut (fun _ _ _ => settles_shut)
      (hlater.settles ht₁)).events
    rw [hnew] at hnew'
    obtain rfl := List.append_cancel_right hnew'
    exact hevents sid headers endStream protocol hin
  · exact (evolves_ordered (run_evolves h)).pairwise

/-- A client that was told to go away. -/
def toldCalls : List Call :=
  [.startStream getRequest true, .feed (serverBytes [.goaway ⟨1, 0, []⟩]), .process .listed]

theorem permanent_told :
    ∃ history c, RunOf terms (Connection.new .client .default) history c ∧ Received c.toCore ∧
      Permanent terms c := by
  have hheeds : HeedsAll terms toldCalls (Connection.new .client .default) := by decide +kernel
  have hrun := RunOf.execAll .start hheeds
  exact ⟨_, _, hrun, ⟨1, .noError, [], by decide +kernel⟩, permanent hrun⟩

/-- Its own GOAWAY makes the client forget the peer's. -/
theorem permanent_any_false :
    ∃ history c, Run (Connection.new .client .default) history c ∧ ¬ Permanent Terms.any c := by
  have hrun := Run.execAll (c := Connection.new .client .default) .start
    (toldCalls ++ [.sendGoaway .noError []])
  refine ⟨_, _, hrun, fun h => ?_⟩
  have hreceived : Received (execAll (toldCalls ++ [.sendGoaway .noError []]) []
    (Connection.new .client .default)).2.toCore := ⟨1, .noError, [], by decide +kernel⟩
  exact h.received hreceived getRequest true trivial (.streamId 3) (by decide +kernel)

end Goaway

end Http2
