import Http2.Connection.Step
import Mathlib.Logic.Relation

/-! Sequences of transitions, and what holds of the stream map in every state they pass. -/
namespace Http2

open Hpack Connection

inductive Step (c : Core) : Label → Core → Prop
  | calm {l : Label} {c' : Core} : Calm c l c' → Step c l c'
  | wake {f : Frame} {S : Nat → Prop} {c' : Core} : Wake c f S c' → Step c (.frame f) c'
  | emit {c' : Core} : Emit c c' → Step c .flush c'
  | start {headers : List HeaderField} {endStream : Bool} {c' : Core} :
      Start c headers endStream c' → Step c (.api (.startStream headers endStream)) c'
  | push {sid : Nat} {data : Bytes} {endStream : Bool} {c' : Core} :
      Push c sid data endStream c' → Step c (.api (.sendData sid data endStream)) c'

def Terms.Meets (T : Terms) (c : Core) : Label → Prop
  | .frame f => T.frame c f
  | .refusal sid => T.refusal c sid
  | .api k => T.api c k
  | .inner | .flush => True

abbrev Steps (T : Terms) := Relation.ReflTransGen fun c d : Core => ∃ l, T.Meets c l ∧ Step c l d

abbrev Emits := Relation.ReflTransGen Emit

/-- Nothing more of this stream can be sent. -/
def Drained (c : Core) (sid : Nat) : Prop :=
  ∀ s, c.stream? sid = some s → s.sendBuffer ≠ [] →
    c.flowControl.sendAvailable = 0 ∨ s.flowControl.sendAvailable = 0

/-- Transitions in which a stream that is given reason to send is drained before anything else
happens. -/
inductive Chain (T : Terms) (c : Core) : Core → Prop
  | refl : Chain T c c
  | calm {l : Label} {d e : Core} : Chain T c d → Calm d l e → T.Meets d l → Chain T c e
  | wake {d e e' : Core} {f : Frame} {S : Nat → Prop} : Chain T c d → Wake d f S e →
      T.Meets d (.frame f) →
      Emits e e' → (∀ sid, S sid → Drained e' sid) → Chain T c e'

theorem emits_steps {T : Terms} {c d : Core} (h : Emits c d) : Steps T c d := by
  have hle : Emit ≤ fun c d : Core => ∃ l, T.Meets c l ∧ Step c l d :=
    fun _ _ hemit => ⟨.flush, trivial, .emit hemit⟩
  exact Relation.ReflTransGen.mono hle _ _ h

namespace Chain

variable {T : Terms} {c d e : Core}

theorem single {l : Label} (h : Calm c l d) (hl : T.Meets c l) : Chain T c d := .calm .refl h hl

theorem trans (h₁ : Chain T c d) (h₂ : Chain T d e) : Chain T c e := by
  induction h₂ with
  | refl => exact h₁
  | calm _ hcalm hl ih => exact .calm ih hcalm hl
  | wake _ hwake hl hemits hdrained ih => exact .wake ih hwake hl hemits hdrained

theorem steps (h : Chain T c d) : Steps T c d := by
  induction h with
  | refl => exact .refl
  | calm _ hcalm hl ih => exact ih.tail ⟨_, hl, .calm hcalm⟩
  | wake _ hwake hl hemits _ ih => exact (ih.tail ⟨_, hl, .wake hwake⟩).trans (emits_steps hemits)

end Chain

/-- Transitions of any kind; what `send_data` accepts is sent as far as it can be. -/
inductive Course (T : Terms) (c : Core) : Core → Prop
  | refl : Course T c c
  | chain {d e : Core} : Course T c d → Chain T d e → Course T c e
  | start {d e : Core} {headers : List HeaderField} {endStream : Bool} : Course T c d →
      Start d headers endStream e → T.Meets d (.api (.startStream headers endStream)) → Course T c e
  | push {d e e' : Core} {sid : Nat} {data : Bytes} {endStream : Bool} : Course T c d →
      Push d sid data endStream e → T.Meets d (.api (.sendData sid data endStream)) → Emits e e' →
      Drained e' sid → Course T c e'

theorem Course.steps {T : Terms} {c d : Core} (h : Course T c d) : Steps T c d := by
  induction h with
  | refl => exact .refl
  | chain _ hchain ih => exact ih.trans hchain.steps
  | start _ hstart hl ih => exact ih.tail ⟨_, hl, .start hstart⟩
  | push _ hpush hl hemits _ ih => exact (ih.tail ⟨_, hl, .push hpush⟩).trans (emits_steps hemits)

/-! ## Live streams -/

/-- A stream that an observer finds in the map: open on one side at least, with data queued only
while it may leave and an END_STREAM queued only behind data. -/
structure Stream.Tidy (s : Stream) : Prop where
  state : s.state = .open ∨ s.state = .halfClosedLocal ∨ s.state = .halfClosedRemote
  pending : s.pendingEndStream = true → s.sendBuffer ≠ []
  queued : s.sendBuffer ≠ [] → s.state.canSend = true

structure Tidy (c : Core) : Prop where
  streams : ∀ sid s, c.stream? sid = some s → sid ≠ 0 ∧ s.Tidy
  closed : c.closedStreams.contains 0 = false
  block : ∀ sid, c.headerContinuationStream = some sid → sid % 2 = 1 ∧ sid ≤ c.lastRecvStreamId
  next : c.role = .client → c.nextStreamId % 2 = 1

theorem Stream.Tidy.notClosed {s : Stream} (h : s.Tidy) : s.state.isClosed = false := by
  obtain heq | heq | heq := h.state <;> simp [heq, StreamState.isClosed]

namespace Tidy

theorem new (role : Role) (limits : Limits) : Tidy (Core.new role limits) where
  streams := by
    intro sid s h
    simp [Core.new] at h
  closed := rfl
  block := by
    intro sid h
    cases h
  next := by
    intro h
    obtain rfl : role = .client := h
    rfl

/-- What `d` has in common with `c` when only the map of streams changed. -/
structure Beside (c d : Core) : Prop where
  closed : d.closedStreams = c.closedStreams
  block : d.headerContinuationStream = c.headerContinuationStream
  role : d.role = c.role
  next : d.nextStreamId = c.nextStreamId
  last : c.lastRecvStreamId ≤ d.lastRecvStreamId

theorem Beside.continued {c d : Core} (hb : Beside c d)
    (h : ∀ sid, c.headerContinuationStream = some sid → sid % 2 = 1 ∧ sid ≤ c.lastRecvStreamId)
    (sid : Nat) (hcont : d.headerContinuationStream = some sid) :
    sid % 2 = 1 ∧ sid ≤ d.lastRecvStreamId := by
  rw [hb.block] at hcont
  obtain ⟨hodd, hle⟩ := h sid hcont
  exact ⟨hodd, hle.trans hb.last⟩

theorem congr {c d : Core} (h : Tidy c) (hstreams : d.streams = c.streams) (hb : Beside c d) :
    Tidy d where
  streams := by
    intro sid s hlive
    exact h.streams sid s (by simpa [hstreams] using hlive)
  closed := by rw [hb.closed, h.closed]
  block := hb.continued h.block
  next := by
    rw [hb.role, hb.next]
    exact h.next

theorem put {c d : Core} {sid : Nat} {s : Stream} (h : Tidy c) (hsid : sid ≠ 0) (hs : s.Tidy)
    (hstreams : d.streams = c.streams.insert sid s) (hb : Beside c d) : Tidy d where
  streams := by
    intro sid' s' hlive
    simp only [Core.stream?_eq, hstreams, lookup_insert_ite] at hlive
    by_cases heq : sid' = sid
    · obtain rfl : s = s' := by simpa [heq] using hlive
      exact ⟨heq ▸ hsid, hs⟩
    · exact h.streams sid' s' (by simpa [heq] using hlive)
  closed := by rw [hb.closed, h.closed]
  block := hb.continued h.block
  next := by
    rw [hb.role, hb.next]
    exact h.next

/-- Dropping a stream keeps the others, whatever its own record had become. -/
theorem drop {c d : Core} {sid : Nat} (h : Tidy c) (hsid : sid ≠ 0)
    (hstreams : ∀ sid' ≠ sid, d.streams.lookup sid' = c.streams.lookup sid') (hb : Beside c d) :
    Tidy (d.dropStream sid) where
  streams := by
    intro sid' s hlive
    simp only [Core.stream?_eq, Core.dropStream_streams, lookup_erase_ite] at hlive
    by_cases heq : sid' = sid
    · simp [heq] at hlive
    · rw [if_neg heq, hstreams sid' heq] at hlive
      exact h.streams sid' s hlive
  closed := by
    apply Bool.eq_false_iff.2
    intro hzero
    rw [Core.dropStream_closedStreams, hb.closed] at hzero
    obtain heq | hin := BoundedSet.contains_of_contains_insert hzero
    · exact hsid heq.symm
    · rw [h.closed] at hin
      cases hin
  block := hb.continued h.block
  next := by
    rw [Core.dropStream_role, Core.dropStream_nextStreamId, hb.role, hb.next]
    exact h.next

/-- A record that is rewritten and dropped if that closed it. -/
theorem putClose {c d : Core} {sid : Nat} {s : Stream} (h : Tidy c) (hsid : sid ≠ 0)
    (hs : s.state.isClosed = false → s.Tidy)
    (hstreams : d.streams = c.streams.insert sid s) (hb : Beside c d) :
    Tidy (d.closeIf sid s.state.isClosed) := by
  unfold Core.closeIf
  by_cases hc : s.state.isClosed = true
  · rw [if_pos hc]
    refine drop h hsid (fun sid' hne => ?_) ⟨hb.closed, hb.block, hb.role, hb.next, hb.last⟩
    simp [hstreams, hne]
  · rw [if_neg hc]
    exact put h hsid (hs (by simpa using hc)) hstreams hb

theorem reset {c d : Core} {sid : Nat} (h : Tidy c) (hsid : sid ≠ 0) (code : ErrorCode)
    (consumed : Nat) (hstreams : ∀ sid' ≠ sid, d.streams.lookup sid' = c.streams.lookup sid')
    (hb : Beside c d) : Tidy (d.resetWith sid code consumed) :=
  drop h hsid hstreams ⟨hb.closed, hb.block, hb.role, hb.next, hb.last⟩

end Tidy

/-! ## The state machine on tidy streams -/

theorem recvData_cases {s s' : StreamState} {endStream : Bool} (h : s.recvData endStream = .ok s') :
    (s = .open ∧ s' = if endStream then .halfClosedRemote else .open) ∨
      (s = .halfClosedLocal ∧ s' = if endStream then .closed else .halfClosedLocal) := by
  cases s <;> simp [StreamState.recvData] at h
  · exact .inl ⟨rfl, h.symm⟩
  · exact .inr ⟨rfl, h.symm⟩

theorem completeSendData_cases {s s' : StreamState} (h : s.completeSendData = .ok s') :
    (s = .open ∧ s' = .halfClosedLocal) ∨ (s = .halfClosedRemote ∧ s' = .closed) := by
  cases s <;> simp [StreamState.completeSendData] at h
  · exact .inl ⟨rfl, h.symm⟩
  · exact .inr ⟨rfl, h.symm⟩

theorem completeSendData_ok {s : StreamState} (h : s.canSend = true) :
    ∃ s', s.completeSendData = .ok s' := by
  cases s <;> simp [StreamState.canSend] at h
  · exact ⟨_, rfl⟩
  · exact ⟨_, rfl⟩

/-- Headers leave a stream that could send. -/
theorem sendHeaders_tidy {s s' : Stream} {endStream : Bool} (h : s.Tidy)
    (hstate : s.state.sendHeaders endStream = .ok s'.state)
    (hempty : endStream = true → s.sendBuffer = []) (hqueue : s.SameQueue s')
    (hopen : s'.state.isClosed = false) : s'.Tidy where
  state := by
    obtain heq | heq | heq := h.state <;> cases endStream <;>
      simp [heq, StreamState.sendHeaders] at hstate <;> simp [← hstate, StreamState.isClosed] at hopen ⊢
  pending := by
    rw [hqueue.pendingEndStream, hqueue.sendBuffer]
    exact h.pending
  queued := by
    intro hne
    rw [hqueue.sendBuffer] at hne
    have hcan := h.queued hne
    cases endStream with
    | true => exact absurd (hempty rfl) hne
    | false =>
      obtain heq | heq | heq := h.state <;>
        simp [heq, StreamState.sendHeaders, StreamState.canSend] at hstate hcan <;>
        simp [← hstate, StreamState.canSend]

/-- What a received header section does to a live stream or to a fresh one. -/
theorem recvHeaders_tidy {s s' : Stream} {endStream : Bool}
    (h : s.Tidy ∨ s.state = .idle ∧ s.sendBuffer = [] ∧ s.pendingEndStream = false)
    (hstate : s.state.recvHeaders endStream = .ok s'.state) (hqueue : s.SameQueue s')
    (hopen : s'.state.isClosed = false) : s'.Tidy where
  state := by
    obtain heq | heq | heq | heq : s.state = .open ∨ s.state = .halfClosedLocal ∨
        s.state = .halfClosedRemote ∨ s.state = .idle := by
      obtain htidy | ⟨heq, _⟩ := h
      · obtain heq | heq | heq := htidy.state
        · exact .inl heq
        · exact .inr (.inl heq)
        · exact .inr (.inr (.inl heq))
      · exact .inr (.inr (.inr heq))
    all_goals
      cases endStream <;> simp [heq, StreamState.recvHeaders] at hstate <;>
        simp [← hstate, StreamState.isClosed] at hopen ⊢
  pending := by
    rw [hqueue.pendingEndStream, hqueue.sendBuffer]
    obtain htidy | ⟨_, _, hp⟩ := h
    · exact htidy.pending
    · simp [hp]
  queued := by
    intro hne
    rw [hqueue.sendBuffer] at hne
    obtain htidy | ⟨_, hempty, _⟩ := h
    · have hcan := htidy.queued hne
      obtain heq | heq | heq := htidy.state <;> cases endStream <;>
        simp [heq, StreamState.recvHeaders, StreamState.canSend] at hstate hcan <;>
        simp [← hstate, StreamState.canSend]
    · exact absurd hempty hne

/-! ## Every transition keeps the map tidy -/

theorem opens_tidy {c base : Core} {sid : Nat} {s : Stream} (h : Tidy c) (hopens : c.Opens sid s base) :
    s.Tidy ∨ s.state = .idle ∧ s.sendBuffer = [] ∧ s.pendingEndStream = false := by
  obtain ⟨hlive, _⟩ | ⟨_, rfl, _⟩ := hopens
  · exact .inl (h.streams sid s hlive).2
  · exact .inr ⟨rfl, rfl, rfl⟩

/-- The core that holds the record differs from the one before in that record only. -/
theorem opens_base {c base : Core} {sid : Nat} {s : Stream} (hopens : c.Opens sid s base) :
    (∀ s', base.streams.insert sid s' = c.streams.insert sid s') ∧
      (∀ sid' ≠ sid, base.streams.lookup sid' = c.streams.lookup sid') ∧ Tidy.Beside c base := by
  obtain ⟨_, rfl⟩ | ⟨_, _, rfl⟩ := hopens
  · exact ⟨fun _ => rfl, fun _ _ => rfl, rfl, rfl, rfl, rfl, Nat.le_refl _⟩
  · refine ⟨fun s' => ?_, fun sid' hne => ?_, rfl, rfl, rfl, rfl, Nat.le_refl _⟩
    · simp [Core.openStream]
    · simp [Core.openStream, hne]

/-- Notes leave the queue, the state and the progress of the message alone. -/
theorem noted_keeps (c : Core) (sid : Nat) (s : Stream) (headers : List HeaderField) :
    s.SameQueue (c.noted sid s headers) ∧ (c.noted sid s headers).state = s.state ∧
      (c.noted sid s headers).initialHeadersReceived = s.initialHeadersReceived ∧
      (c.noted sid s headers).receivedContentLength = s.receivedContentLength ∧
      (c.noted sid s headers).finalResponseSent = s.finalResponseSent := by
  unfold Core.noted noteRequest
  split
  · split <;> exact ⟨⟨rfl, rfl, rfl⟩, rfl, rfl, rfl, rfl⟩
  · split <;> exact ⟨⟨rfl, rfl, rfl⟩, rfl, rfl, rfl, rfl⟩

theorem headers_sameQueue {c : Core} {sid : Nat} {s s' : Stream} {raw : List HeaderField}
    {initial : Bool} (hs : s' = { c.noted sid s raw with
      state := s'.state
      expectedContentLength := s'.expectedContentLength
      initialHeadersReceived := initial }) : s.SameQueue s' := by
  obtain ⟨hqueue, _⟩ := noted_keeps c sid s raw
  rw [hs]
  exact ⟨hqueue.flowControl, hqueue.sendBuffer, hqueue.pendingEndStream⟩

theorem outcome_tidy {c c' : Core} {sid : Nat} {raw : List HeaderField} {endStream : Bool}
    (houtcome : Outcome sid raw endStream c c') (h : Tidy c) (hsid : sid ≠ 0) : Tidy c' := by
  have hnoted : ∀ {d : Core}, Tidy d → Tidy (d.noteSuccessful sid) :=
    fun hd => hd.congr rfl ⟨rfl, rfl, rfl, rfl, Nat.le_refl _⟩
  cases houtcome with
  | ignored => exact h
  | reset code _ _ hopens =>
    obtain ⟨_, hother, hb⟩ := opens_base hopens
    exact hnoted (h.reset hsid code 0 hother hb)
  | tunnel => exact h.reset hsid _ 0 (fun _ _ => rfl) ⟨rfl, rfl, rfl, rfl, Nat.le_refl _⟩
  | gone => exact h.congr rfl ⟨rfl, rfl, rfl, rfl, Nat.le_refl _⟩
  | headers protocol _ hopens _ hstate _ _ _ _ hs =>
    obtain ⟨hput, _, hb⟩ := opens_base hopens
    have hopen := recvHeaders_tidy (opens_tidy h hopens) hstate (headers_sameQueue hs)
    exact hnoted (h.putClose hsid hopen (hput _) ⟨hb.closed, hb.block, hb.role, hb.next, hb.last⟩)
  | @trailers s state _ hlive _ _ _ hstate =>
    have hs : s.Tidy := (h.streams sid s hlive).2
    have hqueue : s.SameQueue { s with state := state } := ⟨rfl, rfl, rfl⟩
    have hopen := recvHeaders_tidy (.inl hs) hstate hqueue
    exact hnoted (h.putClose hsid hopen rfl ⟨rfl, rfl, rfl, rfl, Nat.le_refl _⟩)

/-- END_STREAM left a stream that had nothing more queued. -/
theorem completeSendData_tidy {s s' : Stream} (hstate : s.state.completeSendData = .ok s'.state)
    (hempty : s'.sendBuffer = []) (hpending : s'.pendingEndStream = false)
    (hopen : s'.state.isClosed = false) : s'.Tidy where
  state := by
    obtain ⟨_, hto⟩ | ⟨_, hto⟩ := completeSendData_cases hstate
    · exact .inr (.inl hto)
    · simp [hto, StreamState.isClosed] at hopen
  pending := by simp [hpending]
  queued := by simp [hempty]

theorem recvData_tidy {s s' : Stream} {endStream : Bool} (h : s.Tidy)
    (hstate : s.state.recvData endStream = .ok s'.state) (hbuffer : s'.sendBuffer = s.sendBuffer)
    (hpending : s'.pendingEndStream = s.pendingEndStream) (hopen : s'.state.isClosed = false) :
    s'.Tidy where
  state := by
    obtain ⟨_, hto⟩ | ⟨_, hto⟩ := recvData_cases hstate <;> cases endStream <;>
      simp [hto, StreamState.isClosed] at hopen ⊢
  pending := by
    rw [hbuffer, hpending]
    exact h.pending
  queued := by
    intro hne
    rw [hbuffer] at hne
    have hcan := h.queued hne
    obtain ⟨hfrom, hto⟩ | ⟨hfrom, hto⟩ := recvData_cases hstate
    · cases endStream <;> simp [hto, StreamState.canSend]
    · simp [hfrom, StreamState.canSend] at hcan

theorem calm_tidy {c c' : Core} {l : Label} (h : Tidy c) (hcalm : Calm c l c') : Tidy c' := by
  cases hcalm with
  | receive | peerGoaway | notify | activate | pong | discardData | reportData | resetGone
  | rejectGone | announce | ping | goaway | credit | creditGone | extendBlock =>
    exact h.congr rfl ⟨rfl, rfl, rfl, rfl, Nat.le_refl _⟩
  | beginBlock f _ hadmits _ =>
    refine ⟨h.streams, h.closed, fun sid hsid => ?_, h.next⟩
    obtain rfl : f.streamId = sid := by simpa using hsid
    exact ⟨hadmits.1, Nat.le_max_right _ _⟩
  | refuseData f code hlive =>
    exact h.reset (h.streams _ _ hlive).1 code _ (fun _ _ => rfl) ⟨rfl, rfl, rfl, rfl, Nat.le_refl _⟩
  | @deliverData s s' f hlive _ _ hstate _ _ hs =>
    obtain ⟨hsid, htidy⟩ := h.streams _ _ hlive
    have hopen := recvData_tidy htidy hstate (by rw [hs]) (by rw [hs])
    exact h.putClose hsid hopen rfl ⟨rfl, rfl, rfl, rfl, Nat.le_refl _⟩
  | peerReset sid code hlive =>
      exact h.drop (h.streams _ _ hlive).1 (fun _ _ => rfl) ⟨rfl, rfl, rfl, rfl, Nat.le_refl _⟩
  | reset sid code hlive | reject sid code _ hlive =>
    exact h.reset (h.streams _ _ hlive).1 code _ (fun _ _ => rfl) ⟨rfl, rfl, rfl, rfl, Nat.le_refl _⟩
  | tunnel header payload hsid =>
    exact h.reset hsid _ _ (fun _ _ => rfl) ⟨rfl, rfl, rfl, rfl, Nat.le_refl _⟩
  | overflow sid increment hsid => exact h.reset hsid _ _ (fun _ _ => rfl) ⟨rfl, rfl, rfl, rfl, Nat.le_refl _⟩
  | creditStream sid increment hsid hlive =>
    obtain ⟨_, htidy⟩ := h.streams _ _ hlive
    refine h.put hsid ?_ rfl ⟨rfl, rfl, rfl, rfl, Nat.le_refl _⟩
    exact ⟨htidy.state, htidy.pending, htidy.queued⟩
  | wholeBlock f headers d _ hadmits _ _ houtcome =>
    have hsid : f.streamId ≠ 0 := by
      have hodd := hadmits.1
      omega
    exact outcome_tidy houtcome (h.congr rfl ⟨rfl, rfl, rfl, rfl, Nat.le_max_left _ _⟩) hsid
  | endBlock f headers d hcont _ _ houtcome =>
    have hsid : f.streamId ≠ 0 := by
      have hodd := (h.block _ hcont).1
      omega
    refine outcome_tidy houtcome ⟨h.streams, h.closed, fun sid hsid => ?_, h.next⟩ hsid
    cases hsid
  | @respond s s' sid headers endStream hlive _ _ hstate hempty _ hs =>
    obtain ⟨hsid, htidy⟩ := h.streams _ _ hlive
    have hqueue : s.SameQueue s' := by
      rw [hs]
      exact ⟨rfl, rfl, rfl⟩
    exact h.putClose hsid (sendHeaders_tidy htidy hstate hempty hqueue) (by simp)
      ⟨by simp, by simp, by simp, by simp, by simp⟩
  | @trail s state sid headers hlive _ _ hstate hempty _ =>
    obtain ⟨hsid, htidy⟩ := h.streams _ _ hlive
    have hqueue : s.SameQueue { s with state := state } := ⟨rfl, rfl, rfl⟩
    have hopen := sendHeaders_tidy htidy hstate (fun _ => hempty) hqueue
    exact h.putClose hsid hopen (by simp) ⟨by simp, by simp, by simp, by simp, by simp⟩

theorem wake_tidy {c c' : Core} {f : Frame} {S : Nat → Prop} (h : Tidy c) (hwake : Wake c f S c') :
    Tidy c' := by
  cases hwake with
  | update => exact h.congr rfl ⟨rfl, rfl, rfl, rfl, Nat.le_refl _⟩
  | updateStream sid increment hsid hlive =>
    obtain ⟨_, htidy⟩ := h.streams _ _ hlive
    refine h.put hsid ?_ rfl ⟨rfl, rfl, rfl, rfl, Nat.le_refl _⟩
    exact ⟨htidy.state, htidy.pending, htidy.queued⟩
  | settings f streams _ hstreams =>
    refine ⟨fun sid s hlive => ?_, h.closed, h.block, h.next⟩
    obtain ⟨_, rfl⟩ | ⟨_, hmap⟩ := hstreams
    · exact h.streams sid s hlive
    · obtain ⟨_, hnone⟩ | ⟨s₀, fc, hold, _, hnew⟩ := hmap sid
      · simp [hnone] at hlive
      · obtain rfl : { s₀ with flowControl := fc } = s := by simpa [hnew] using hlive
        obtain ⟨hsid, htidy⟩ := h.streams sid s₀ hold
        exact ⟨hsid, htidy.state, htidy.pending, htidy.queued⟩

theorem emit_tidy {c c' : Core} (h : Tidy c) (hemit : Emit c c') : Tidy c' := by
  cases hemit with
  | chunk sid data rest hlive hbuffer hdata _ _ _ hmore =>
    obtain ⟨hsid, htidy⟩ := h.streams _ _ hlive
    refine h.put hsid ?_ rfl ⟨rfl, rfl, rfl, rfl, Nat.le_refl _⟩
    refine ⟨htidy.state, hmore, fun _ => htidy.queued ?_⟩
    rw [hbuffer]
    simp [hdata]
  | @last s state sid hlive _ _ _ _ _ hstate =>
    obtain ⟨hsid, _⟩ := h.streams _ _ hlive
    let s' : Stream := { s with
      sendBuffer := []
      pendingEndStream := false
      state := state
      flowControl := s.flowControl.addSend (-s.sendBuffer.length) }
    have hclose : s'.state.isClosed = false → s'.Tidy := completeSendData_tidy hstate rfl rfl
    exact h.putClose hsid hclose rfl ⟨rfl, rfl, rfl, rfl, Nat.le_refl _⟩

theorem requestStream_keeps (s : Stream) (headers : List HeaderField) :
    s.SameQueue (requestStream s headers) ∧ (requestStream s headers).state = s.state ∧
      (requestStream s headers).initialHeadersReceived = s.initialHeadersReceived := by
  unfold requestStream
  split <;> exact ⟨⟨rfl, rfl, rfl⟩, rfl, rfl⟩

theorem start_sameQueue {c : Core} {sid : Nat} {s : Stream} {headers : List HeaderField}
    (hs : s = requestStream { c.newStream sid with state := s.state } headers) :
    (c.newStream sid).SameQueue s := by
  obtain ⟨hqueue, _⟩ := requestStream_keeps { c.newStream sid with state := s.state } headers
  rw [hs]
  exact ⟨hqueue.flowControl, hqueue.sendBuffer, hqueue.pendingEndStream⟩

theorem start_tidy {c c' : Core} {headers : List HeaderField} {endStream : Bool} (h : Tidy c)
    (hstart : Start c headers endStream c') : Tidy c' := by
  cases hstart with
  | request s hrole _ _ _ hstate hs =>
    have hqueue := start_sameQueue hs
    have hodd := h.next hrole
    have hsid : c.nextStreamId ≠ 0 := by omega
    have htidy : s.Tidy := {
      state := by cases endStream <;> simp [hstate]
      pending := by simp [hqueue.pendingEndStream, Core.newStream, Stream.new]
      queued := by simp [hqueue.sendBuffer, Core.newStream, Stream.new] }
    have hput : Tidy (c.openStream c.nextStreamId s) :=
      h.put hsid htidy rfl ⟨rfl, rfl, rfl, rfl, Nat.le_refl _⟩
    refine ⟨fun sid s' hlive => ?_, ?_, fun sid hblock => ?_, fun _ => ?_⟩
    · exact hput.streams sid s' (by simpa [Core.openStream] using hlive)
    · simpa [Core.openStream] using h.closed
    · simpa [Core.openStream] using h.block sid (by simpa [Core.openStream] using hblock)
    · simp only [Core.sendBlock_nextStreamId, Core.openStream, Core.putStream_nextStreamId,
        Core.log_nextStreamId]
      omega

theorem push_tidy {c c' : Core} {sid : Nat} {data : Bytes} {endStream : Bool} (h : Tidy c)
    (hpush : Push c sid data endStream c') : Tidy c' := by
  cases hpush with
  | queue _ _ hlive hpending hcan hsome =>
    obtain ⟨hsid, htidy⟩ := h.streams _ _ hlive
    refine h.put hsid ?_ rfl ⟨rfl, rfl, rfl, rfl, Nat.le_refl _⟩
    exact ⟨htidy.state, hsome, fun _ => hcan⟩
  | @emptyEnd s state hlive hpending hempty hstate =>
    obtain ⟨hsid, htidy⟩ := h.streams _ _ hlive
    have hclose : ({ s with state := state } : Stream).state.isClosed = false →
        ({ s with state := state } : Stream).Tidy := completeSendData_tidy hstate hempty hpending
    exact h.putClose hsid hclose rfl ⟨rfl, rfl, rfl, rfl, Nat.le_refl _⟩

theorem step_tidy {c c' : Core} {l : Label} (h : Tidy c) (hstep : Step c l c') : Tidy c' := by
  cases hstep with
  | calm hcalm => exact calm_tidy h hcalm
  | wake hwake => exact wake_tidy h hwake
  | emit hemit => exact emit_tidy h hemit
  | start hstart => exact start_tidy h hstart
  | push hpush => exact push_tidy h hpush

theorem steps_tidy {T : Terms} {c c' : Core} (h : Tidy c) (hsteps : Steps T c c') : Tidy c' := by
  induction hsteps with
  | refl => exact h
  | tail _ hstep ih =>
    obtain ⟨l, _, hstep⟩ := hstep
    exact step_tidy ih hstep

end Http2
