import Http2.Connection.Sending

/-! What is queued and could be sent has been sent: in every state that an observer may see, a stream
with data left waits for window. -/
namespace Http2

open Hpack Lib Lib.Prog Connection

/-- Every stream with data left waits for window. -/
def AllDrained (c : Core) : Prop := ∀ sid, Drained c sid

/-- Nothing is lost in the queue of a stream: END_STREAM waits behind data only, and data wait for
window only, on a stream that may still send. -/
structure Waits (c : Core) (s : Stream) : Prop where
  pending : s.pendingEndStream = true → s.sendBuffer ≠ []
  state : s.sendBuffer ≠ [] → s.state = .open ∨ s.state = .halfClosedRemote
  window : s.sendBuffer ≠ [] → c.flowControl.sendAvailable = 0 ∨ s.flowControl.sendAvailable = 0

variable {c d : Core} {sid : Nat}

theorem new_drained (role : Role) (limits : Limits) : AllDrained (Core.new role limits) := by
  intro sid s hlive
  simp [Core.new] at hlive

/-! ## The connection window -/

theorem opens_flowControl {base : Core} {s : Stream} (h : c.Opens sid s base) :
    base.flowControl = c.flowControl := by
  obtain ⟨_, rfl⟩ | ⟨_, _, rfl⟩ := h <;> rfl

theorem outcome_flowControl {c' : Core} {raw : List HeaderField} {endStream : Bool}
    (h : Outcome sid raw endStream c c') : c'.flowControl = c.flowControl := by
  cases h with
  | ignored | tunnel | gone => rfl
  | reset code _ _ hopens =>
    have hbase := opens_flowControl hopens
    exact hbase
  | headers protocol _ hopens =>
    have hbase := opens_flowControl hopens
    exact (Core.closeIf_flowControl _ _ _).trans hbase
  | trailers => exact Core.closeIf_flowControl _ _ _

theorem sendBlock_flowControl (headers : List HeaderField) (endStream : Bool) :
    (c.sendBlock sid headers endStream).flowControl = c.flowControl := by
  simp [Core.sendBlock, Core.logSent_eq]

/-- Only frames that open the window and DATA that leaves move the connection's send window. -/
theorem calm_sendWindow {l : Label} (h : Calm c l d) :
    d.flowControl.sendWindow = c.flowControl.sendWindow := by
  cases h with
  | wholeBlock _ _ _ _ _ _ _ houtcome | endBlock _ _ _ _ _ _ houtcome =>
    have hflow := outcome_flowControl houtcome
    exact congrArg FlowControl.sendWindow hflow
  | deliverData => rw [Core.closeIf_flowControl]; rfl
  | respond | trail => rw [Core.closeIf_flowControl, sendBlock_flowControl]; rfl
  | _ => rfl

/-! ## The queues -/

/-- A stream with data left had the same data and the same window before. -/
def Queued (c : Core) (sid : Nat) (s' : Stream) : Prop :=
  s'.sendBuffer ≠ [] → ∃ s, c.stream? sid = some s ∧ s.sendBuffer ≠ [] ∧
    s'.flowControl.sendWindow ≤ s.flowControl.sendWindow

theorem drained_of_queued (h : AllDrained c)
    (hconn : d.flowControl.sendWindow = c.flowControl.sendWindow)
    (hqueued : ∀ s', d.stream? sid = some s' → Queued c sid s') : Drained d sid :=
  (h sid).mono (Int.le_of_eq hconn) hqueued

theorem Resent.queued {l : Label} {s' : Stream} (h : Resent c l sid s') : Queued c sid s' := by
  intro hne
  obtain ⟨s, hold, hsame⟩ | ⟨_, _, hfresh, _⟩ := h
  · rw [hsame.sendBuffer] at hne
    exact ⟨s, hold, hne, Int.le_of_eq hsame.sendWindow⟩
  · exact absurd hfresh.sendBuffer hne

/-- A header section leaves the queue of its stream alone. -/
theorem section_queued {s s' t : Stream} {sid' : Nat} {headers : List HeaderField}
    {endStream closed : Bool} (hold : c.stream? sid = some s) (hqueue : s.SameQueue s')
    (hlive : (((c.putStream sid s').sendBlock sid headers endStream).closeIf sid closed).stream? sid' =
      some t) : Queued c sid' t := by
  intro hne
  rw [Core.stream?_eq, Core.closeIf_lookup] at hlive
  split at hlive
  · cases hlive
  · rw [Core.sendBlock_streams, Core.putStream_streams, lookup_insert_ite] at hlive
    split at hlive
    · rename_i heq
      obtain rfl : s' = t := Option.some.inj hlive
      rw [hqueue.sendBuffer] at hne
      exact ⟨s, heq ▸ hold, hne, by rw [hqueue.flowControl]⟩
    · exact ⟨t, hlive, hne, Int.le_refl _⟩

theorem calm_queued {l : Label} {t : Stream} (h : Calm c l d) (ht : Tidy c)
    (hlive : d.stream? sid = some t) : Queued c sid t := by
  by_cases hquiet : l.quiet = true
  · refine (calm_resent h ht (fun _ _ _ hl => ?_) (fun _ _ hl => ?_) hlive).queued
    · rw [hl] at hquiet
      cases hquiet
    · rw [hl] at hquiet
      cases hquiet
  · cases h with
    | @respond s s' sid headers endStream hold _ _ _ _ _ hs =>
      have hqueue : s.SameQueue s' := by
        rw [hs]
        exact ⟨rfl, rfl, rfl⟩
      exact section_queued hold hqueue hlive
    | @trail s state sid headers hold =>
      have hqueue : s.SameQueue { s with state := state } := ⟨rfl, rfl, rfl⟩
      exact section_queued hold hqueue hlive
    | announce _ hk => obtain rfl | rfl := hk <;> exact absurd rfl hquiet
    | credit _ _ hl => obtain rfl | rfl := hl <;> exact absurd rfl hquiet
    | _ => exact absurd rfl hquiet

/-! ## Transitions -/

theorem calm_drained {l : Label} (h : AllDrained c) (ht : Tidy c) (hcalm : Calm c l d) :
    AllDrained d := by
  intro sid
  apply drained_of_queued h (calm_sendWindow hcalm)
  intro s' hlive
  exact calm_queued hcalm ht hlive

/-- The streams that a frame does not wake are as they were. -/
theorem wake_drained {f : Frame} {S : Nat → Prop} (h : AllDrained c) (hwake : Wake c f S d)
    (hsid : ¬ S sid) : Drained d sid := by
  cases hwake with
  | update => exact absurd trivial hsid
  | settings => exact absurd trivial hsid
  | updateStream sid' increment _ _ =>
    have hne : sid ≠ sid' := hsid
    refine drained_of_queued h rfl ?_
    intro s' hlive hnonempty
    simp only [Core.stream?_eq, Core.putStream_streams, Core.log_streams, lookup_insert_ite, hne,
      if_false] at hlive
    exact ⟨s', hlive, hnonempty, Int.le_refl _⟩

theorem chain_drained {T : Terms} (h : AllDrained c) (ht : Tidy c) (hchain : Chain T c d) :
    AllDrained d := by
  induction hchain with
  | refl => exact h
  | calm hchain hcalm _ ih => exact calm_drained ih (steps_tidy ht hchain.steps) hcalm
  | @wake d e e' f S _ hwake _ hemits hdrained ih =>
    intro sid
    by_cases hsid : S sid
    · exact hdrained sid hsid
    · exact emits_drained (wake_drained ih hwake hsid) hemits

/-- A request queues nothing. -/
theorem start_drained {headers : List HeaderField} {endStream : Bool} (h : AllDrained c)
    (hstart : Start c headers endStream d) : AllDrained d := by
  intro sid
  cases hstart with
  | request s _ _ _ _ _ hs =>
    have hqueue := start_sameQueue hs
    apply drained_of_queued h
    · rw [sendBlock_flowControl]
      rfl
    · intro s' hlive hne
      simp only [Core.stream?_eq, Core.sendBlock_streams, Core.openStream, Core.putStream_streams,
        Core.log_streams, lookup_insert_ite] at hlive
      split at hlive
      · obtain rfl : s = s' := Option.some.inj hlive
        exact absurd hqueue.sendBuffer hne
      · exact ⟨s', hlive, hne, Int.le_refl _⟩

/-- What `send_data` accepts concerns its own stream. -/
theorem push_drained {sid' : Nat} {data : Bytes} {endStream : Bool} (h : AllDrained c)
    (hpush : Push c sid' data endStream d) (hne : sid ≠ sid') : Drained d sid := by
  cases hpush with
  | queue =>
    refine drained_of_queued h rfl ?_
    intro s' hlive hnonempty
    simp only [Core.stream?_eq, Core.putStream_streams, Core.log_streams, lookup_insert_ite, hne,
      if_false] at hlive
    exact ⟨s', hlive, hnonempty, Int.le_refl _⟩
  | emptyEnd =>
    apply drained_of_queued h
    · rw [Core.closeIf_flowControl]
      rfl
    · intro s' hlive hnonempty
      simp only [Core.stream?_eq, Core.closeIf_lookup, Core.putStream_streams, Core.log_streams,
        lookup_insert_ite, hne, false_and, if_false] at hlive
      exact ⟨s', hlive, hnonempty, Int.le_refl _⟩

theorem course_drained {T : Terms} (h : AllDrained c) (ht : Tidy c) (hcourse : Course T c d) :
    AllDrained d := by
  induction hcourse with
  | refl => exact h
  | chain hcourse hchain ih => exact chain_drained ih (steps_tidy ht hcourse.steps) hchain
  | start _ hstart _ ih => exact start_drained ih hstart
  | @push d e e' sid' data endStream _ hpush _ hemits hdrained ih =>
    intro sid
    by_cases hsid : sid = sid'
    · exact hsid ▸ hdrained
    · exact emits_drained (push_drained ih hpush hsid) hemits

/-! ## `complete_send_data` -/

/-- The calls that reach `flush_stream_data`. -/
def Call.flushes : Call → Bool
  | .process _ | .sendData _ _ _ => true
  | _ => false

theorem fault_plain {l : Label} {e : Error} (h : Fault c e l d) :
    e.plain = true ∨ e.kind = .connectionError .compressionError := by
  cases h with
  | decoder h | refused _ h | settings _ _ _ _ h => exact .inl h
  | badBlock _ _ h | badLast _ _ h | longBlock _ h | longNext _ h => exact .inr h

/-- `flush_stream_data` passes the errors of its parts on, and so do its callers; they have none to
pass on. -/
theorem exec_plain {c : Connection} (ht : Tidy c.toCore) {k : Call} (hk : k.flushes = true) {e : Error}
    (herror : (k.exec c).1 = .error e) :
    e.plain = true ∨ e.kind = .connectionError .compressionError := by
  have hplain : Ensures k.exec c fun r _ =>
      r = .error e → e.plain = true ∨ e.kind = .connectionError .compressionError := by
    cases k with
    | process it =>
      refine ensures_map (process_follows (T := Terms.any) it ht (heeds_any _ _ _)) ?_ ?_
      · rintro _ _ _ ⟨⟩
      · rintro e' c' ⟨_, _, _, _, hfault⟩ heq
        obtain rfl : e' = e := Except.error.inj heq
        exact fault_plain hfault
    | sendData sid data endStream =>
      refine ensures_map (sendData_spec sid data endStream c ht) ?_ ?_
      · rintro _ _ _ ⟨⟩
      · rintro e' c' ⟨_, hplain⟩ heq
        obtain rfl : e' = e := Except.error.inj heq
        exact .inl hplain
    | _ => cases hk
  exact hplain herror

theorem exec_complete {c : Connection} (ht : Tidy c.toCore) {k : Call} (hk : k.flushes = true)
    {s : StreamState} {e : Error} (hstate : s.completeSendData = .error e) :
    (k.exec c).1 ≠ .error e := by
  intro herror
  have hplain := exec_plain ht hk herror
  cases s <;> cases hstate <;> obtain h | h := hplain <;> cases h

/-! ## Runs -/

theorem waits_of_drained {s : Stream} (hs : s.Tidy) (h : Drained c sid) (hlive : c.stream? sid = some s) :
    Waits c s where
  pending := hs.pending
  state hne := by
    have hcan := hs.queued hne
    obtain heq | heq | heq := hs.state
    · exact .inl heq
    · simp [heq, StreamState.canSend] at hcan
    · exact .inr heq
  window := h s hlive

/-- Whatever was called, and as long as nothing received was refused: data that could be sent do not
sit in a queue, and the next call does not fail in `complete_send_data`. -/
theorem queues_wait {role : Role} {limits : Limits} {history : List Record} {c : Connection}
    (hrun : Run (Connection.new role limits) history c) (hsound : Sound history) :
    (∀ sid s, c.stream? sid = some s → Waits c.toCore s) ∧
      ∀ k : Call, k.flushes = true → ∀ (state : StreamState) (e : Error),
        state.completeSendData = .error e → (k.exec c).1 ≠ .error e := by
  have ht := run_tidy hrun.any
  have hdrained : AllDrained c.toCore :=
    course_drained (new_drained role limits) (Tidy.new role limits) (run_course hrun.any hsound)
  constructor
  · intro sid s hlive
    exact waits_of_drained (ht.streams sid s hlive).2 (hdrained sid) hlive
  · intro k hk state e hstate
    exact exec_complete ht hk hstate

/-- A client whose peer allows no data: an octet and END_STREAM wait. -/
def blockedCalls : List Call :=
  [.startStream getRequest false,
    .feed (serverBytes [.settings ⟨false, [.initialWindowSize ⟨0, by decide⟩]⟩]), .process .listed,
    .sendData 1 [0x61] true]

theorem queues_wait_blocked :
    ∃ history c, Run (Connection.new .client .default) history c ∧ Sound history ∧
      (∃ s, c.stream? 1 = some s ∧ s.sendBuffer = [0x61] ∧ s.pendingEndStream = true ∧
        Waits c.toCore s) ∧
      (((Call.sendData 1 [0x62] false).exec c).1.isOk = false) ∧
      ((Call.sendData 1 [0x62] false).exec c).1 ≠
        .error (.streamError .streamClosed "complete_send_data called in invalid state") := by
  have hrun := Run.execAll (c := Connection.new .client .default) .start blockedCalls
  have hsound : Sound (execAll blockedCalls [] (Connection.new .client .default)).1 := by
    unfold Sound
    decide +kernel
  obtain ⟨hwaits, hcomplete⟩ := queues_wait hrun hsound
  refine ⟨_, _, hrun, hsound, ?_, by decide +kernel, hcomplete _ rfl .closed _ rfl⟩
  have hqueue : (((execAll blockedCalls [] (Connection.new .client .default)).2.stream? 1).map fun s =>
      (s.sendBuffer, s.pendingEndStream)) = some ([0x61], true) := by decide +kernel
  obtain ⟨s, hlive, hs⟩ := Option.map_eq_some_iff.1 hqueue
  obtain ⟨hbuffer, hpending⟩ := Prod.mk.inj hs
  exact ⟨s, hlive, hbuffer, hpending, hwaits 1 s hlive⟩

end Http2
