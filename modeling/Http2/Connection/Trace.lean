import Http2.Connection.Calls

/-! What a transition does, as far as it can be told from its label and the state before it: which
state the connection goes to, which records come into being, and what is recorded. -/
namespace Http2

open Hpack Connection

/-! ## The state of the connection -/

/-- The fields that are about the connection as a whole. -/
structure Status where
  role : Role
  state : ConnectionState
  localSettings : Settings
  remoteSettings : Settings
  nextStreamId : Nat
  lastRecvStreamId : Nat
  lastSuccessfulStreamId : Nat
  lastSentGoawayStreamId : Option Nat
  headerContinuationStream : Option Nat

@[simps] def Core.status (c : Core) : Status where
  role := c.role
  state := c.state
  localSettings := c.localSettings
  remoteSettings := c.remoteSettings
  nextStreamId := c.nextStreamId
  lastRecvStreamId := c.lastRecvStreamId
  lastSuccessfulStreamId := c.lastSuccessfulStreamId
  lastSentGoawayStreamId := c.lastSentGoawayStreamId
  headerContinuationStream := c.headerContinuationStream

/-- What transitions and failures make of them. -/
inductive Turns (c : Core) : Label → Status → Prop
  | same (l : Label) : Turns c l c.status
  | activate (hstate : c.state = .waitingPreface) : Turns c .inner { c.status with state := .active }
  | peerGoaway (f : GoawayFrame) :
      Turns c (.frame (.goaway f)) { c.status with state := .goawayReceived }
  | goaway (errorCode : ErrorCode) (debugData : Bytes) :
      Turns c (.api (.sendGoaway errorCode debugData)) { c.status with
        lastSentGoawayStreamId := some c.goawayStreamId
        state := .goawaySent }
  | settings (f : SettingsFrame) (remote : Settings) :
      Turns c (.frame (.settings f)) { c.status with remoteSettings := remote }
  | beginBlock (f : HeadersFrame) (hcont : c.headerContinuationStream = none)
      (hadmits : c.Admits f.streamId) (hfirst : f.endHeaders = false) :
      Turns c (.frame (.headers f)) { c.status with
        lastRecvStreamId := max c.lastRecvStreamId f.streamId
        headerContinuationStream := some f.streamId }
  -- The GOAWAY that follows may report the stream of a block, or not.
  | wholeBlock (f : HeadersFrame) (successful : Nat) (hcont : c.headerContinuationStream = none)
      (hadmits : c.Admits f.streamId) (hlast : f.endHeaders = true)
      (hsuccessful : successful = c.lastSuccessfulStreamId ∨
        successful = max c.lastSuccessfulStreamId f.streamId) :
      Turns c (.frame (.headers f)) { c.status with
        lastRecvStreamId := max c.lastRecvStreamId f.streamId
        lastSuccessfulStreamId := successful }
  | endBlock (f : ContinuationFrame) (successful : Nat)
      (hcont : c.headerContinuationStream = some f.streamId) (hlast : f.endHeaders = true)
      (hsuccessful : successful = c.lastSuccessfulStreamId ∨
        successful = max c.lastSuccessfulStreamId f.streamId) :
      Turns c (.frame (.continuation f)) { c.status with
        headerContinuationStream := none
        lastSuccessfulStreamId := successful }
  | request (headers : List HeaderField) (endStream : Bool) (hrole : c.role = .client)
      (hgoaway : c.state ≠ .goawayReceived) (hmax : c.nextStreamId ≤ streamIdMax) :
      Turns c (.api (.startStream headers endStream)) { c.status with
        nextStreamId := c.nextStreamId + 2 }

namespace Core

@[simp] theorem log_status (c : Core) (i : Item) : (c.log i).status = c.status := rfl

@[simp] theorem putStream_status (c : Core) (sid : Nat) (s : Stream) :
    (c.putStream sid s).status = c.status := rfl

@[simp] theorem dropStream_status (c : Core) (sid : Nat) : (c.dropStream sid).status = c.status := rfl

@[simp] theorem setFlow_status (c : Core) (fc : FlowControl) : (c.setFlow fc).status = c.status := rfl

@[simp] theorem chargeRecv_status (c : Core) (size : Nat) : (c.chargeRecv size).status = c.status := rfl

@[simp] theorem chargeSend_status (c : Core) (size : Nat) : (c.chargeSend size).status = c.status := rfl

@[simp] theorem growBlock_status (c : Core) (fragment : Bytes) :
    (c.growBlock fragment).status = c.status := rfl

@[simp] theorem resetWith_status (c : Core) (sid : Nat) (code : ErrorCode) (consumed : Nat) :
    (c.resetWith sid code consumed).status = c.status := rfl

@[simp] theorem closeIf_status (c : Core) (sid : Nat) (closed : Bool) :
    (c.closeIf sid closed).status = c.status := by
  unfold closeIf
  split <;> rfl

@[simp] theorem sendBlock_status (c : Core) (sid : Nat) (headers : List HeaderField)
    (endStream : Bool) : (c.sendBlock sid headers endStream).status = c.status := by
  simp [sendBlock, logSent_eq, status]

end Core

theorem opens_status {c base : Core} {sid : Nat} {s : Stream} (h : c.Opens sid s base) :
    base.status = c.status := by
  obtain ⟨_, rfl⟩ | ⟨_, _, rfl⟩ := h <;> rfl

theorem noteSuccessful_status {c d : Core} {sid : Nat} (h : d.status = c.status) :
    (d.noteSuccessful sid).status =
      { c.status with lastSuccessfulStreamId := max c.lastSuccessfulStreamId sid } := by
  rw [← c.status_lastSuccessfulStreamId, ← h]
  rfl

theorem outcome_status {c c' : Core} {sid : Nat} {raw : List HeaderField} {endStream : Bool}
    (h : Outcome sid raw endStream c c') :
    ∃ successful, (successful = c.lastSuccessfulStreamId ∨
      successful = max c.lastSuccessfulStreamId sid) ∧
      c'.status = { c.status with lastSuccessfulStreamId := successful } := by
  cases h with
  | ignored | tunnel | gone => exact ⟨_, .inl rfl, rfl⟩
  | reset code _ _ hopens =>
    have hbase := opens_status hopens
    exact ⟨_, .inr rfl, noteSuccessful_status hbase⟩
  | headers protocol _ hopens =>
    have hbase := opens_status hopens
    exact ⟨_, .inr rfl, noteSuccessful_status ((Core.closeIf_status ..).trans hbase)⟩
  | trailers => exact ⟨_, .inr rfl, noteSuccessful_status (Core.closeIf_status ..)⟩

theorem calm_turns {c c' : Core} {l : Label} (h : Calm c l c') : Turns c l c'.status := by
  cases h with
  | peerGoaway f => exact .peerGoaway f
  | goaway errorCode debugData => exact .goaway errorCode debugData
  | activate hstate => exact .activate hstate
  | beginBlock f hcont hadmits hfirst => exact .beginBlock f hcont hadmits hfirst
  | wholeBlock f _ _ hcont hadmits hlast _ houtcome =>
    obtain ⟨successful, hsuccessful, hstatus⟩ := outcome_status houtcome
    rw [hstatus]
    exact .wholeBlock f successful hcont hadmits hlast hsuccessful
  | endBlock f _ _ hcont hlast _ houtcome =>
    obtain ⟨successful, hsuccessful, hstatus⟩ := outcome_status houtcome
    rw [hstatus]
    exact .endBlock f successful hcont hlast hsuccessful
  | receive | notify | pong | discardData | reportData | refuseData | deliverData | peerReset | reset
  | resetGone | reject | rejectGone | tunnel | overflow | extendBlock | announce | ping | credit
  | creditStream | creditGone | respond | trail =>
    simp only [Core.log_status, Core.putStream_status, Core.dropStream_status, Core.setFlow_status,
      Core.chargeRecv_status, Core.growBlock_status, Core.resetWith_status, Core.closeIf_status,
      Core.sendBlock_status]
    exact .same _

theorem step_turns {c c' : Core} {l : Label} (h : Step c l c') : Turns c l c'.status := by
  cases h with
  | calm h => exact calm_turns h
  | wake h =>
    cases h with
    | update | updateStream =>
      simp only [Core.setFlow_status, Core.putStream_status, Core.log_status]
      exact .same _
    | settings f => exact .settings f _
  | emit h =>
    cases h with
    | chunk | last =>
      simp only [Core.closeIf_status, Core.log_status, Core.putStream_status, Core.chargeSend_status]
      exact .same _
  | start h =>
    cases h with
    | request s hrole hgoaway hmax =>
      rw [Core.sendBlock_status]
      exact .request _ _ hrole hgoaway hmax
  | push h =>
    cases h with
    | queue | emptyEnd =>
      simp only [Core.closeIf_status, Core.log_status, Core.putStream_status]
      exact .same _

theorem fault_turns {c c' : Core} {e : Error} {l : Label} (h : Fault c e l c') :
    Turns c l c'.status := by
  cases h with
  | decoder | refused | longNext => exact .same _
  | settings f remote => exact .settings f remote
  | badBlock f d _ hcont hadmits hlast => exact .wholeBlock f _ hcont hadmits hlast (.inl rfl)
  | badLast f d _ hcont hlast => exact .endBlock f _ hcont hlast (.inl rfl)
  | longBlock f _ hcont hadmits hfirst => exact .beginBlock f hcont hadmits hfirst

theorem Change.turns {c d : Core} {l : Label} (h : Change c l d) : Turns c l d.status := by
  cases h with
  | step h => exact step_turns h
  | fault h => exact fault_turns h

/-- Only a GOAWAY, and the end of `WaitingPreface`, move the state on. -/
theorem Change.state {c d : Core} {l : Label} (h : Change c l d) :
    d.state = c.state ∨ c.state = .waitingPreface ∧ d.state = .active ∨
      (∃ f, l = .frame (.goaway f) ∧ d.state = .goawayReceived) ∨
      ∃ errorCode debugData, l = .api (.sendGoaway errorCode debugData) ∧ d.state = .goawaySent := by
  have hturns := h.turns
  rw [← d.status_state, ← c.status_state]
  generalize d.status = status at hturns
  cases hturns with
  | activate hstate => exact .inr (.inl ⟨hstate, rfl⟩)
  | peerGoaway f => exact .inr (.inr (.inl ⟨f, rfl, rfl⟩))
  | goaway errorCode debugData => exact .inr (.inr (.inr ⟨errorCode, debugData, rfl, rfl⟩))
  | same | settings | beginBlock | wholeBlock | endBlock | request => exact .inl rfl

theorem Change.role {c d : Core} {l : Label} (h : Change c l d) : d.role = c.role := by
  have hturns := h.turns
  rw [← d.status_role, ← c.status_role]
  generalize d.status = status at hturns
  cases hturns <;> rfl

/-- A connection stays on its side. -/
theorem evolves_role {T : Terms} {c d : Core} (h : Evolves T c d) : d.role = c.role := by
  induction h with
  | refl => rfl
  | tail _ hchange ih =>
    obtain ⟨l, _, hchange⟩ := hchange
    exact hchange.role.trans ih

theorem Change.localSettings {c d : Core} {l : Label} (h : Change c l d) :
    d.localSettings = c.localSettings := by
  have hturns := h.turns
  rw [← d.status_localSettings, ← c.status_localSettings]
  generalize d.status = status at hturns
  cases hturns <;> rfl

theorem evolves_localSettings {T : Terms} {c d : Core} (h : Evolves T c d) :
    d.localSettings = c.localSettings := by
  induction h with
  | refl => rfl
  | tail _ hchange ih =>
    obtain ⟨l, _, hchange⟩ := hchange
    exact hchange.localSettings.trans ih

/-- Only frames of the peer begin and end header blocks. -/
theorem Change.headerContinuationStream {c d : Core} {l : Label} (h : Change c l d)
    (hl : ∀ f, l ≠ .frame f) : d.headerContinuationStream = c.headerContinuationStream := by
  have hturns := h.turns
  rw [← d.status_headerContinuationStream, ← c.status_headerContinuationStream]
  generalize d.status = status at hturns
  cases hturns with
  | beginBlock | endBlock => exact absurd rfl (hl _)
  | same | activate | peerGoaway | goaway | settings | wholeBlock | request => rfl

theorem Change.lastSentGoawayStreamId {c d : Core} {l : Label} (h : Change c l d) :
    d.lastSentGoawayStreamId = c.lastSentGoawayStreamId ∨
      ∃ errorCode debugData, l = .api (.sendGoaway errorCode debugData) := by
  have hturns := h.turns
  rw [← d.status_lastSentGoawayStreamId, ← c.status_lastSentGoawayStreamId]
  generalize d.status = status at hturns
  cases hturns with
  | goaway errorCode debugData => exact .inr ⟨errorCode, debugData, rfl⟩
  | same | activate | peerGoaway | settings | beginBlock | wholeBlock | endBlock | request =>
    exact .inl rfl

theorem Change.lastRecvStreamId {c d : Core} {l : Label} (h : Change c l d) :
    d.lastRecvStreamId = c.lastRecvStreamId ∨ ∃ f, l = .frame (.headers f) ∧ c.Admits f.streamId ∧
      d.lastRecvStreamId = max c.lastRecvStreamId f.streamId := by
  have hturns := h.turns
  rw [← d.status_lastRecvStreamId, ← c.status_lastRecvStreamId]
  generalize d.status = status at hturns
  cases hturns with
  | beginBlock f _ hadmits => exact .inr ⟨f, rfl, hadmits, rfl⟩
  | wholeBlock f _ _ hadmits => exact .inr ⟨f, rfl, hadmits, rfl⟩
  | same | activate | peerGoaway | goaway | settings | endBlock | request => exact .inl rfl

/-- `start_stream` is one transition. -/
theorem change_request {c d : Core} {headers : List HeaderField} {endStream : Bool}
    (h : Change c (.api (.startStream headers endStream)) d) : Start c headers endStream d := by
  cases h with
  | step hstep =>
    cases hstep with
    | calm hcalm =>
      cases hcalm with
      | announce _ hk => obtain hk | hk := hk <;> cases hk
      | credit _ _ hl => obtain hl | hl := hl <;> cases hl
    | start hstart => exact hstart
  | fault hfault => cases hfault

/-! ## Records -/

/-- The ids that have or had a record, as far as the connection remembers. -/
def Core.Used (c : Core) (sid : Nat) : Prop :=
  (c.stream? sid).isSome = true ∨ c.closedStreams.contains sid = true

instance (c : Core) (sid : Nat) : Decidable (c.Used sid) := inferInstanceAs (Decidable (_ ∨ _))

/-- The transitions that may create the record of a stream. -/
inductive Begins (c : Core) : Label → Nat → Prop
  | request (headers : List HeaderField) (endStream : Bool) (hrole : c.role = .client)
      (hgoaway : c.state ≠ .goawayReceived) (hmax : c.nextStreamId ≤ streamIdMax) :
      Begins c (.api (.startStream headers endStream)) c.nextStreamId
  | whole (f : HeadersFrame) (hcont : c.headerContinuationStream = none)
      (hadmits : c.Admits f.streamId) (hlast : f.endHeaders = true)
      (hclosed : c.closedStreams.contains f.streamId = false) :
      Begins c (.frame (.headers f)) f.streamId
  | last (f : ContinuationFrame) (hcont : c.headerContinuationStream = some f.streamId)
      (hlast : f.endHeaders = true) (hclosed : c.closedStreams.contains f.streamId = false) :
      Begins c (.frame (.continuation f)) f.streamId

/-- The record of `sid` may have changed, come or gone; all others are as they were. -/
structure Near (c d : Core) (sid : Nat) : Prop where
  others : ∀ sid' ≠ sid, d.streams.lookup sid' = c.streams.lookup sid'
  closed : ∀ sid', d.closedStreams.contains sid' = true →
    sid' = sid ∨ c.closedStreams.contains sid' = true

namespace Near

variable {c d : Core} {sid : Nat}

theorem put {s : Stream} (hstreams : d.streams = c.streams.insert sid s)
    (hclosed : d.closedStreams = c.closedStreams) : Near c d sid where
  others := by
    intro sid' hne
    simp [hstreams, hne]
  closed := by
    intro sid' h
    rw [hclosed] at h
    exact .inr h

theorem drop (h : Near c d sid) : Near c (d.dropStream sid) sid where
  others := by
    intro sid' hne
    simpa [hne] using h.others sid' hne
  closed := by
    intro sid' hin
    obtain heq | hin := BoundedSet.contains_of_contains_insert hin
    · exact .inl heq
    · exact h.closed sid' hin

theorem reset (h : Near c d sid) (code : ErrorCode) (consumed : Nat) :
    Near c (d.resetWith sid code consumed) sid := drop ⟨h.others, h.closed⟩

theorem closeIf (h : Near c d sid) (closed : Bool) : Near c (d.closeIf sid closed) sid := by
  unfold Core.closeIf
  split
  · exact drop ⟨h.others, h.closed⟩
  · exact h

theorem putClose {s : Stream} (hstreams : d.streams = c.streams.insert sid s)
    (hclosed : d.closedStreams = c.closedStreams) (closed : Bool) :
    Near c (d.closeIf sid closed) sid := closeIf (put hstreams hclosed) closed

theorem refl : Near c c sid := ⟨fun _ _ => rfl, fun _ h => .inr h⟩

end Near

/-- Which records a transition may change: none but in their windows, or one, which was live before
unless the transition may create it. -/
def Touches (c : Core) (l : Label) (d : Core) : Prop :=
  (d.closedStreams = c.closedStreams ∧
    ∀ sid, (d.stream? sid).isSome = (c.stream? sid).isSome) ∨
  ∃ sid, Near c d sid ∧ ((c.stream? sid).isSome = true ∨ Begins c l sid)

theorem touches_same {c d : Core} {l : Label} (hstreams : d.streams = c.streams)
    (hclosed : d.closedStreams = c.closedStreams) : Touches c l d :=
  .inl ⟨hclosed, fun sid => by simp [hstreams]⟩

theorem touches_live {c d : Core} {l : Label} {sid : Nat} {s : Stream}
    (hlive : c.stream? sid = some s) (h : Near c d sid) : Touches c l d :=
  .inr ⟨sid, h, .inl (by simp [hlive])⟩

theorem touches_put {c d : Core} {l : Label} {sid : Nat} {s s' : Stream}
    (hlive : c.stream? sid = some s) (hstreams : d.streams = c.streams.insert sid s')
    (hclosed : d.closedStreams = c.closedStreams) : Touches c l d :=
  touches_live hlive (Near.put hstreams hclosed)

theorem touches_putClose {c d : Core} {l : Label} {sid : Nat} {s : Stream} {closed : Bool}
    (s' : Stream) (hlive : c.stream? sid = some s) (hstreams : d.streams = c.streams.insert sid s')
    (hclosed : d.closedStreams = c.closedStreams) : Touches c l (d.closeIf sid closed) :=
  touches_live hlive (Near.putClose hstreams hclosed closed)

theorem touches_drop {c d : Core} {l : Label} {sid : Nat} {s : Stream}
    (hlive : c.stream? sid = some s) (hstreams : d.streams = c.streams)
    (hclosed : d.closedStreams = c.closedStreams) : Touches c l (d.dropStream sid) := by
  refine touches_live hlive (Near.drop ⟨fun _ _ => by rw [hstreams], fun _ h => ?_⟩)
  exact .inr (hclosed ▸ h)

theorem opens_near {c base : Core} {sid : Nat} {s : Stream} (h : c.Opens sid s base) :
    Near c base sid := by
  obtain ⟨_, hothers, hbeside⟩ := opens_base h
  refine ⟨hothers, fun sid' hin => ?_⟩
  rw [hbeside.closed] at hin
  exact .inr hin

/-- A header block touches the record of its stream only. -/
theorem outcome_near {c c' : Core} {sid : Nat} {raw : List HeaderField} {endStream : Bool}
    (h : Outcome sid raw endStream c c') :
    c' = c ∨ c.closedStreams.contains sid = false ∧ Near c c' sid := by
  cases h with
  | ignored => exact .inl rfl
  | reset code _ hclosed hopens =>
    have hnear := (opens_near hopens).reset code 0
    exact .inr ⟨hclosed, hnear.others, hnear.closed⟩
  | tunnel hclosed _ => exact .inr ⟨hclosed, Near.refl.reset _ _⟩
  | gone hclosed _ => exact .inr ⟨hclosed, fun _ _ => rfl, fun _ h => .inr h⟩
  | @headers s s' base protocol hclosed hopens =>
    obtain ⟨hput, _, hbeside⟩ := opens_base hopens
    have hnear := Near.putClose (c := c) (d := (base.putStream sid s').log (.event (.headersReceived sid
      (concatenateCookies raw) endStream protocol))) (hput s') hbeside.closed s'.state.isClosed
    exact .inr ⟨hclosed, hnear.others, hnear.closed⟩
  | @trailers s state hclosed _ =>
    have hnear := Near.putClose (c := c) (d := (c.putStream sid { s with state := state }).log
      (.event (.trailersReceived sid (concatenateCookies raw)))) rfl rfl state.isClosed
    exact .inr ⟨hclosed, hnear.others, hnear.closed⟩

theorem calm_touches {c c' : Core} {l : Label} (h : Calm c l c') : Touches c l c' := by
  cases h with
  | receive | peerGoaway | notify | activate | pong | discardData | reportData | resetGone
  | rejectGone | beginBlock | extendBlock | announce | ping | goaway | credit | creditGone =>
    exact touches_same rfl rfl
  | refuseData f code hlive => exact touches_drop hlive rfl rfl
  | deliverData f hlive => exact touches_putClose _ hlive rfl rfl
  | peerReset sid code hlive => exact touches_drop hlive rfl rfl
  | reset sid code hlive => exact touches_drop hlive rfl rfl
  | reject sid code _ hlive => exact touches_drop hlive rfl rfl
  | tunnel header payload _ hlive => exact touches_drop hlive rfl rfl
  | overflow sid increment _ hlive => exact touches_drop hlive rfl rfl
  | creditStream sid increment _ hlive => exact touches_put hlive rfl rfl
  | @respond s s' sid headers endStream hlive =>
    exact touches_putClose s' hlive (by simp) (by simp)
  | @trail s state sid headers hlive =>
    exact touches_putClose { s with state := state } hlive (by simp) (by simp)
  | wholeBlock f headers d hcont hadmits hlast _ houtcome =>
    obtain rfl | ⟨hclosed, hnear⟩ := outcome_near houtcome
    · exact touches_same rfl rfl
    · exact .inr ⟨f.streamId, ⟨hnear.others, hnear.closed⟩, .inr (.whole f hcont hadmits hlast hclosed)⟩
  | endBlock f headers d hcont hlast _ houtcome =>
    obtain rfl | ⟨hclosed, hnear⟩ := outcome_near houtcome
    · exact touches_same rfl rfl
    · exact .inr ⟨f.streamId, ⟨hnear.others, hnear.closed⟩, .inr (.last f hcont hlast hclosed)⟩

theorem step_touches {c c' : Core} {l : Label} (h : Step c l c') : Touches c l c' := by
  cases h with
  | calm h => exact calm_touches h
  | wake h =>
    cases h with
    | update => exact touches_same rfl rfl
    | updateStream sid _ _ hlive => exact touches_put hlive rfl rfl
    | settings f streams _ hstreams =>
      refine .inl ⟨rfl, fun sid => ?_⟩
      obtain ⟨_, rfl⟩ | ⟨_, hmap⟩ := hstreams
      · rfl
      · obtain ⟨hold, hnew⟩ | ⟨s, fc, hold, _, hnew⟩ := hmap sid <;> simp [hold, hnew]
  | emit h =>
    cases h with
    | chunk sid _ _ hlive => exact touches_put hlive rfl rfl
    | last sid hlive => exact touches_putClose _ hlive rfl rfl
  | start h =>
    cases h with
    | request s hrole hgoaway hmax =>
      refine .inr ⟨_, Near.put (s := s) ?_ ?_, .inr (.request _ _ hrole hgoaway hmax)⟩
      · simp [Core.openStream]
      · simp [Core.openStream]
  | push h =>
    cases h with
    | queue _ _ hlive => exact touches_put hlive rfl rfl
    | emptyEnd hlive => exact touches_putClose _ hlive rfl rfl

theorem fault_touches {c c' : Core} {e : Error} {l : Label} (h : Fault c e l c') :
    Touches c l c' := by
  cases h with
  | settings f remote pending streams _ hstreams =>
    refine .inl ⟨rfl, fun sid => ?_⟩
    obtain ⟨hold, hnew⟩ | ⟨s, fc, hold, hnew⟩ := hstreams sid <;> simp [hold, hnew]
  | decoder | refused | badBlock | badLast | longBlock | longNext => exact touches_same rfl rfl

theorem Change.touches {c d : Core} {l : Label} (h : Change c l d) : Touches c l d := by
  cases h with
  | step h => exact step_touches h
  | fault h => exact fault_touches h

/-- Records are created by the transitions that may create them. -/
theorem Touches.live {c d : Core} {l : Label} {sid : Nat} (h : Touches c l d)
    (hlive : (d.stream? sid).isSome = true) : (c.stream? sid).isSome = true ∨ Begins c l sid := by
  obtain ⟨_, hsame⟩ | ⟨sid', hnear, hwas⟩ := h
  · exact .inl ((hsame sid).symm.trans hlive)
  · by_cases heq : sid = sid'
    · exact heq ▸ hwas
    · rw [Core.stream?_eq, hnear.others sid heq] at hlive
      exact .inl hlive

theorem Touches.used {c d : Core} {l : Label} {sid : Nat} (h : Touches c l d) (hused : d.Used sid) :
    c.Used sid ∨ Begins c l sid := by
  obtain hlive | hin := hused
  · obtain hlive | hbegins := h.live hlive
    · exact .inl (.inl hlive)
    · exact .inr hbegins
  · obtain ⟨hclosed, _⟩ | ⟨sid', hnear, hwas⟩ := h
    · exact .inl (.inr (hclosed ▸ hin))
    · obtain rfl | hin := hnear.closed sid hin
      · obtain hlive | hbegins := hwas
        · exact .inl (.inl hlive)
        · exact .inr hbegins
      · exact .inl (.inr hin)

/-! ## The trace -/

/-- What a transition may send. -/
def Sends (c : Core) (l : Label) : Frame → Prop
  | .goaway f => ∃ errorCode debugData, l = .api (.sendGoaway errorCode debugData) ∧
      f = ⟨c.goawayStreamId, errorCode.asU32, debugData⟩
  | .windowUpdate sid increment => sid = 0 ∨ l = .api (.sendWindowUpdate sid increment) ∧
      ((c.stream? sid).isSome = true ∨ 0 < increment ∧ increment ≤ maxWindowSize)
  | .rstStream sid _ => c.isIdleStream sid = false ∨ (∃ f, l = .frame (.headers f) ∧ f.streamId = sid) ∨
      c.headerContinuationStream = some sid
  | .data f => (c.stream? f.streamId).isSome = true ∧
      (l = .flush ∨ ∃ sid data endStream, l = .api (.sendData sid data endStream))
  | .headers f => (∃ headers, l = .api (.startStream headers f.endStream) ∧ f.streamId = c.nextStreamId) ∨
      (c.stream? f.streamId).isSome = true ∧
        ((∃ headers, l = .api (.sendResponse f.streamId headers f.endStream)) ∨
          ∃ headers, l = .api (.sendTrailers f.streamId headers) ∧ f.endStream = true)
  | _ => True

/-- What a transition may tell the application. -/
def Tells (c : Core) (l : Label) : Event → Prop
  | .goawayReceived _ _ _ => ∃ f, l = .frame (.goaway f)
  | .headersReceived sid headers _ _ => Begins c l sid ∧ ∃ raw, headers = concatenateCookies raw ∧
      match c.role with
      | .server => validateRequestHeaders raw = .ok ()
      | .client => validateResponseHeaders raw = .ok ()
  | .trailersReceived sid headers => Begins c l sid ∧ ∃ raw, headers = concatenateCookies raw ∧
      validateTrailers raw = .ok ()
  | _ => True

/-- What a transition records of its cause. -/
def Label.cause : Label → List Item
  | .frame f => [.received f]
  | .refusal sid => [.rejected sid]
  | .api _ | .inner | .flush => []

/-- What a transition may record after it. -/
def Records (c : Core) (l : Label) : Item → Prop
  | .received _ | .rejected _ => False
  | .sent f => Sends c l f
  | .event e => Tells c l e
  | .opened sid => Begins c l sid
  | _ => True

/-- The history goes on with its cause and with items that may be recorded. -/
def Extends (c : Core) (l : Label) (d : Core) : Prop :=
  ∃ new, d.trace = new ++ (l.cause ++ c.trace) ∧ ∀ i ∈ new, Records c l i

namespace Extends

variable {c d : Core} {l : Label}

theorem congr {d' : Core} (h : Extends c l d) (htrace : d'.trace = d.trace) : Extends c l d' := by
  obtain ⟨new, heq, hnew⟩ := h
  exact ⟨new, htrace.trans heq, hnew⟩

/-- Where the cause leaves no trace. -/
theorem refl (h : l.cause = []) : Extends c l c := ⟨[], by simp [h], by simp⟩

/-- Nothing is recorded that was not there, the cause or allowed. -/
theorem mem {i : Item} (h : Extends c l d) (hi : i ∈ d.trace) :
    Records c l i ∨ i ∈ l.cause ∨ i ∈ c.trace := by
  obtain ⟨new, heq, hnew⟩ := h
  rw [heq, List.mem_append, List.mem_append] at hi
  exact hi.imp_left (hnew i)

theorem log {i : Item} (h : Extends c l d) (hi : Records c l i) : Extends c l (d.log i) := by
  obtain ⟨new, heq, hnew⟩ := h
  refine ⟨i :: new, by simp [heq], fun j hj => ?_⟩
  obtain rfl | hj := List.mem_cons.1 hj
  · exact hi
  · exact hnew j hj

theorem received (f : Frame) : Extends c (.frame f) (c.log (.received f)) := ⟨[], rfl, by simp⟩

theorem rejected (sid : Nat) : Extends c (.refusal sid) (c.log (.rejected sid)) := ⟨[], rfl, by simp⟩

theorem putStream {sid : Nat} {s : Stream} (h : Extends c l d) : Extends c l (d.putStream sid s) :=
  congr h rfl

theorem dropStream {sid : Nat} (h : Extends c l d) : Extends c l (d.dropStream sid) := congr h rfl

theorem setFlow {fc : FlowControl} (h : Extends c l d) : Extends c l (d.setFlow fc) := congr h rfl

theorem noteSuccessful {sid : Nat} (h : Extends c l d) : Extends c l (d.noteSuccessful sid) :=
  congr h rfl

theorem reset {sid : Nat} {code : ErrorCode} {consumed : Nat} (h : Extends c l d)
    (hi : Records c l (.sent (.rstStream sid code.asU32))) :
    Extends c l (d.resetWith sid code consumed) :=
  dropStream (log (log h hi) trivial)

theorem closeIf {sid : Nat} {closed : Bool} (h : Extends c l d) : Extends c l (d.closeIf sid closed) := by
  unfold Core.closeIf
  split
  · exact dropStream (log h trivial)
  · exact h

theorem logSent {fs : List Frame} (h : Extends c l d) (hfs : ∀ f ∈ fs, Sends c l f) :
    Extends c l (d.logSent fs) := by
  induction fs generalizing d with
  | nil => exact h
  | cons f fs ih =>
    have hf := hfs f (List.mem_cons_self ..)
    exact ih (log h hf) fun g hg => hfs g (List.mem_cons_of_mem _ hg)

end Extends

theorem continuationFrames_continues {sid maxFrameSize fuel : Nat} {remaining : Bytes} :
    ∀ f ∈ continuationFrames sid maxFrameSize fuel remaining,
      ∃ cf : ContinuationFrame, f = .continuation cf ∧ cf.streamId = sid := by
  induction fuel generalizing remaining with
  | zero => simp [continuationFrames]
  | succ fuel ih =>
    unfold continuationFrames
    split
    · simp
    · intro f hf
      obtain rfl | hf := List.mem_cons.1 hf
      · exact ⟨_, rfl, rfl⟩
      · exact ih f hf

/-- A block is HEADERS, which carries its flag, and CONTINUATIONs. -/
theorem blockFrames_cases (sid maxFrameSize : Nat) (endStream : Bool) (block : Bytes) :
    ∃ hf : HeadersFrame, hf.streamId = sid ∧ hf.endStream = endStream ∧ ∃ fs,
      blockFrames sid endStream maxFrameSize block = .headers hf :: fs ∧
      ∀ f ∈ fs, ∃ cf : ContinuationFrame, f = .continuation cf ∧ cf.streamId = sid := by
  unfold blockFrames
  split
  · exact ⟨_, rfl, rfl, [], rfl, by simp⟩
  · exact ⟨_, rfl, rfl, _, rfl, continuationFrames_continues⟩

/-- What a header list leaves in the history: itself, HEADERS and CONTINUATIONs. -/
theorem sendBlock_trace (c : Core) (sid : Nat) (headers : List HeaderField) (endStream : Bool) :
    ∃ (f : HeadersFrame) (fs : List Frame), f.streamId = sid ∧ f.endStream = endStream ∧
      (∀ g ∈ fs, ∃ cf : ContinuationFrame, g = .continuation cf ∧ cf.streamId = sid) ∧
      (c.sendBlock sid headers endStream).trace =
        (fs.map Item.sent).reverse ++ .sent (.headers f) :: .encoded sid headers :: c.trace := by
  let r := c.hpackEncoder.encode headers
  obtain ⟨f, hsid, hend, fs, heq, hfs⟩ := blockFrames_cases sid c.remoteSettings.maxFrameSize endStream
    (r.1.encodePending c.pendingTableSizeUpdate ++ r.2)
  refine ⟨f, fs, hsid, hend, hfs, ?_⟩
  simp [Core.sendBlock, Core.logSent_eq, heq, r]

/-- The block of a header list begins with HEADERS. -/
theorem sendBlock_sent (c : Core) (sid : Nat) (headers : List HeaderField) (endStream : Bool) :
    ∃ f : HeadersFrame, f.streamId = sid ∧ f.endStream = endStream ∧
      .sent (.headers f) ∈ (c.sendBlock sid headers endStream).trace := by
  obtain ⟨f, fs, hsid, hend, _, htrace⟩ := sendBlock_trace c sid headers endStream
  exact ⟨f, hsid, hend, by simp [htrace]⟩

theorem Extends.block {c d : Core} {l : Label} {sid : Nat} {headers : List HeaderField}
    {endStream : Bool} (h : Extends c l d)
    (hi : ∀ f : HeadersFrame, f.streamId = sid → f.endStream = endStream → Sends c l (.headers f)) :
    Extends c l (d.sendBlock sid headers endStream) := by
  obtain ⟨new, heq, hnew⟩ := h
  obtain ⟨f, fs, hsid, hend, hfs, htrace⟩ := sendBlock_trace d sid headers endStream
  refine ⟨(fs.map Item.sent).reverse ++ .sent (.headers f) :: .encoded sid headers :: new,
    by simp [htrace, heq], fun i hmem => ?_⟩
  simp only [List.mem_append, List.mem_reverse, List.mem_map, List.mem_cons] at hmem
  obtain ⟨g, hg, rfl⟩ | rfl | rfl | hmem := hmem
  · obtain ⟨cf, rfl, _⟩ := hfs g hg
    trivial
  · exact hi f hsid hend
  · trivial
  · exact hnew i hmem

theorem idle_of_live {c : Core} {sid : Nat} {s : Stream} (h : c.stream? sid = some s) :
    c.isIdleStream sid = false := by
  unfold Core.isIdleStream
  rw [h]
  rfl

theorem Extends.opens {c d base : Core} {l : Label} {sid : Nat} {s : Stream} (h : Extends c l d)
    (hbegins : Begins c l sid) (hopens : d.Opens sid s base) : Extends c l base := by
  obtain ⟨_, rfl⟩ | ⟨_, _, rfl⟩ := hopens
  · exact h
  · exact .putStream (.log h hbegins)

/-- What a header block records, when it may touch the record of its stream. -/
theorem outcome_extends {c d c' : Core} {l : Label} {sid : Nat} {raw : List HeaderField}
    {endStream : Bool} (houtcome : Outcome sid raw endStream d c') (h : Extends c l d)
    (hrole : d.role = c.role) (hbegins : d.closedStreams.contains sid = false → Begins c l sid)
    (hrst : ∀ code : ErrorCode, Sends c l (.rstStream sid code.asU32)) : Extends c l c' := by
  cases houtcome with
  | ignored => exact h
  | reset code _ hclosed hopens =>
    exact .noteSuccessful (.reset (h.opens (hbegins hclosed) hopens) (hrst code))
  | tunnel => exact .reset h (hrst .protocolError)
  | gone => exact .log h (hrst .protocolError)
  | headers protocol hclosed hopens _ _ hvalid =>
    refine .noteSuccessful (.closeIf (.log (.putStream (h.opens (hbegins hclosed) hopens)) ?_))
    rw [hrole] at hvalid
    exact ⟨hbegins hclosed, raw, rfl, hvalid⟩
  | trailers hclosed hlive _ _ hvalid =>
    refine .noteSuccessful (.closeIf (.log (.putStream h) ?_))
    exact ⟨hbegins hclosed, raw, rfl, hvalid⟩

theorem calm_extends {c c' : Core} {l : Label} (h : Calm c l c') : Extends c l c' := by
  -- Frames about a live stream never hit an idle one.
  have hlive' : ∀ {sid : Nat} {s : Stream} {code : Nat}, c.stream? sid = some s →
      Records c l (.sent (.rstStream sid code)) := fun h => .inl (idle_of_live h)
  cases h with
  | receive f => exact .received f
  | peerGoaway f => exact .log (.congr (.received _) rfl) ⟨f, rfl⟩
  | notify e he =>
    refine .log (.refl rfl) ?_
    cases e <;> trivial
  | activate => exact .congr (.refl rfl) rfl
  | pong => exact .log (.refl rfl) trivial
  | discardData f => exact .setFlow (.received _)
  | reportData f => exact .log (.setFlow (.received _)) trivial
  | refuseData f code hlive => exact .reset (.setFlow (.received _)) (hlive' hlive)
  | deliverData f hlive => exact .closeIf (.log (.putStream (.setFlow (.received _))) trivial)
  | peerReset sid code hlive => exact .dropStream (.log (.received _) trivial)
  | reset sid code hlive => exact .reset (.refl rfl) (hlive' hlive)
  | resetGone sid code _ hidle => exact .log (.refl rfl) (.inl hidle)
  | reject sid code _ hlive => exact .reset (.rejected sid) (hlive' hlive)
  | rejectGone sid code _ hidle => exact .log (.rejected sid) (.inl hidle)
  | tunnel header payload _ hlive => exact .reset (.received _) (hlive' hlive)
  | overflow sid increment _ hlive => exact .reset (.received _) (hlive' hlive)
  | beginBlock f => exact .congr (.received _) rfl
  | extendBlock f => exact .congr (.received _) rfl
  | wholeBlock f headers d hcont hadmits hlast _ houtcome =>
    refine outcome_extends houtcome ?_ rfl (fun hclosed => .whole f hcont hadmits hlast hclosed)
      fun _ => .inr (.inl ⟨f, rfl, rfl⟩)
    exact .log (.congr (.received _) rfl) trivial
  | endBlock f headers d hcont hlast _ houtcome =>
    refine outcome_extends houtcome ?_ rfl (fun hclosed => .last f hcont hlast hclosed)
      fun _ => .inr (.inr hcont)
    exact .log (.congr (.received _) rfl) trivial
  | announce => exact .log (.refl rfl) trivial
  | ping => exact .log (.refl rfl) trivial
  | goaway errorCode debugData =>
      exact .congr (.log (.refl rfl) (i := .sent (.goaway _)) ⟨errorCode, debugData, rfl, rfl⟩) rfl
  | credit l increment hl =>
    have hcause : l.cause = [] := by obtain rfl | rfl := hl <;> rfl
    exact .log (.setFlow (.refl hcause)) (.inl rfl)
  | creditStream sid increment _ hlive =>
    exact .log (.putStream (.refl rfl)) (.inr ⟨rfl, .inl (by simp [hlive])⟩)
  | creditGone sid increment _ _ hpos hmax => exact .log (.refl rfl) (.inr ⟨rfl, .inr ⟨hpos, hmax⟩⟩)
  | respond sid headers endStream hlive =>
    refine .closeIf (.block (.putStream (.refl rfl)) fun f hsid hend => .inr ⟨?_, .inl ⟨headers, ?_⟩⟩)
    · simp [hsid, hlive]
    · rw [hsid, hend]
  | trail sid headers hlive =>
    refine .closeIf (.block (.putStream (.refl rfl)) fun f hsid hend => .inr ⟨?_, .inr ⟨headers, ?_, hend⟩⟩)
    · simp [hsid, hlive]
    · rw [hsid]

theorem step_extends {c c' : Core} {l : Label} (h : Step c l c') : Extends c l c' := by
  cases h with
  | calm h => exact calm_extends h
  | wake h =>
    cases h with
    | update => exact .setFlow (.received _)
    | updateStream => exact .putStream (.received _)
    | settings => exact .log (.congr (.received _) rfl) trivial
  | emit h =>
    cases h with
    | chunk sid _ _ hlive =>
      exact .log (.putStream (.setFlow (.refl rfl))) (by simp [Records, Sends, hlive])
    | last sid hlive =>
      exact .closeIf (.log (.putStream (.setFlow (.refl rfl))) (by simp [Records, Sends, hlive]))
  | @start headers endStream _ h =>
    cases h with
    | request s hrole hgoaway hmax =>
      have hbegins := Begins.request headers endStream hrole hgoaway hmax
      refine .block (.putStream (.log (.congr (.refl rfl) rfl) hbegins)) fun f hsid hend => ?_
      exact .inl ⟨_, by rw [hend], hsid⟩
  | push h =>
    cases h with
    | queue => exact .putStream (.log (.refl rfl) trivial)
    | emptyEnd hlive =>
      exact .closeIf (.log (.putStream (.log (.refl rfl) trivial)) (by simp [Records, Sends, hlive]))

theorem fault_extends {c c' : Core} {e : Error} {l : Label} (h : Fault c e l c') :
    Extends c l c' := by
  cases h with
  | decoder => exact .refl rfl
  | refused | settings | badBlock | badLast | longBlock | longNext =>
    exact .congr (.received _) rfl

theorem Change.extends {c d : Core} {l : Label} (h : Change c l d) : Extends c l d := by
  cases h with
  | step h => exact step_extends h
  | fault h => exact fault_extends h

end Http2
