import Http2.Connection.Trace

/-! What transitions do to the sending half of a stream. -/
namespace Http2

open Hpack Connection

/-- The sending half of a stream did not change, its window apart. -/
structure Stream.SameOutput (s s' : Stream) : Prop where
  sendBuffer : s'.sendBuffer = s.sendBuffer
  pendingEndStream : s'.pendingEndStream = s.pendingEndStream
  finalResponseSent : s'.finalResponseSent = s.finalResponseSent
  canSend : s'.state.canSend = s.state.canSend

/-- Nor did its window. -/
structure Stream.SameSend (s s' : Stream) : Prop extends s.SameOutput s' where
  sendWindow : s'.flowControl.sendWindow = s.flowControl.sendWindow
  sendInitial : s'.flowControl.sendInitial = s.flowControl.sendInitial

theorem Stream.SameSend.refl (s : Stream) : s.SameSend s := ⟨⟨rfl, rfl, rfl, rfl⟩, rfl, rfl⟩

/-- What a record is that a transition left: as it was on the sending side, or fresh. -/
def Resent (c : Core) (l : Label) (sid : Nat) (s' : Stream) : Prop :=
  (∃ s, c.stream? sid = some s ∧ s.SameSend s') ∨
    c.stream? sid = none ∧ Begins c l sid ∧ (c.newStream sid).SameQueue s' ∧
      s'.finalResponseSent = false

theorem recvData_canSend {s s' : StreamState} {endStream : Bool} (h : s.recvData endStream = .ok s') :
    s'.canSend = s.canSend := by
  obtain ⟨rfl, rfl⟩ | ⟨rfl, rfl⟩ := recvData_cases h <;> cases endStream <;> rfl

theorem recvHeaders_canSend {s s' : StreamState} {endStream : Bool}
    (h : s.recvHeaders endStream = .ok s') (hidle : s ≠ .idle) : s'.canSend = s.canSend := by
  cases s <;> simp [StreamState.recvHeaders] at h hidle <;> subst h <;> cases endStream <;> rfl

theorem Stream.Tidy.notIdle {s : Stream} (h : s.Tidy) : s.state ≠ .idle := by
  obtain heq | heq | heq := h.state <;> simp [heq]

section

variable {c d : Core} {l : Label} {sid sid' : Nat} {s s' : Stream}

/-- A record that is not the one touched. -/
theorem resent_same (hstreams : d.streams.lookup sid' = c.streams.lookup sid')
    (hlive : d.stream? sid' = some s') : Resent c l sid' s' := by
  rw [Core.stream?_eq, hstreams] at hlive
  exact .inl ⟨s', hlive, .refl s'⟩

theorem resent_drop (hstreams : d.streams = c.streams)
    (hlive : (d.dropStream sid).stream? sid' = some s') : Resent c l sid' s' := by
  simp only [Core.stream?_eq, Core.dropStream_streams, lookup_erase_ite] at hlive
  split at hlive
  · cases hlive
  · exact resent_same (congrArg _ hstreams) hlive

theorem resent_put (hold : c.stream? sid = some s) (hsame : s.SameSend s')
    (hstreams : d.streams = c.streams.insert sid s') {t : Stream}
    (hlive : d.stream? sid' = some t) : Resent c l sid' t := by
  rw [Core.stream?_eq, hstreams, lookup_insert_ite] at hlive
  split at hlive
  · rename_i heq
    obtain rfl : s' = t := Option.some.inj hlive
    exact .inl ⟨s, heq ▸ hold, hsame⟩
  · exact .inl ⟨t, hlive, .refl t⟩

theorem resent_putClose (hold : c.stream? sid = some s) (hsame : s.SameSend s')
    (hstreams : d.streams = c.streams.insert sid s') {t : Stream} {closed : Bool}
    (hlive : (d.closeIf sid closed).stream? sid' = some t) : Resent c l sid' t := by
  rw [Core.stream?_eq, Core.closeIf_lookup] at hlive
  split at hlive
  · cases hlive
  · exact resent_put hold hsame hstreams hlive

/-- A received header section leaves the sending half alone, or finds none. -/
theorem outcome_resent {c' : Core} {raw : List HeaderField} {endStream : Bool}
    (houtcome : Outcome sid raw endStream d c') (ht : Tidy d) (hstreams : d.streams = c.streams)
    (hnew : d.newStream sid = c.newStream sid)
    (hbegins : d.closedStreams.contains sid = false → Begins c l sid) {t : Stream}
    (hlive : c'.stream? sid' = some t) : Resent c l sid' t := by
  cases houtcome with
  | ignored => exact resent_same (congrArg _ hstreams) hlive
  | gone => exact resent_same (congrArg _ hstreams) hlive
  | tunnel => exact resent_drop hstreams hlive
  | reset code _ _ hopens =>
    obtain ⟨_, hothers, _⟩ := opens_base hopens
    change (Core.dropStream _ sid).stream? sid' = some t at hlive
    simp only [Core.stream?_eq, Core.dropStream_streams, lookup_erase_ite] at hlive
    split at hlive
    · cases hlive
    · rename_i hne
      exact resent_same ((hothers sid' hne).trans (congrArg _ hstreams)) hlive
  | @headers s s' base protocol hclosed hopens hinitial hstate _ _ _ _ hs =>
    obtain ⟨hput, _, _⟩ := opens_base hopens
    obtain ⟨_, _, _, _, hfinal⟩ := noted_keeps d sid s raw
    have hqueue := headers_sameQueue hs
    have hfinal' : s'.finalResponseSent = s.finalResponseSent := by
      rw [hs]
      exact hfinal
    change (Core.closeIf _ sid _).stream? sid' = some t at hlive
    rw [Core.stream?_eq, Core.closeIf_lookup] at hlive
    split at hlive
    · cases hlive
    · change (base.streams.insert sid s').lookup sid' = some t at hlive
      rw [hput, lookup_insert_ite, hstreams] at hlive
      split at hlive
      · rename_i heq
        obtain rfl : s' = t := Option.some.inj hlive
        subst heq
        obtain ⟨hold, _⟩ | ⟨hold, rfl, _⟩ := hopens
        · have hcan := recvHeaders_canSend hstate (ht.streams _ _ hold).2.notIdle
          refine .inl ⟨s, by rw [Core.stream?_eq, ← hstreams]; exact hold, ?_⟩
          exact ⟨⟨hqueue.sendBuffer, hqueue.pendingEndStream, hfinal', hcan⟩,
            by rw [hqueue.flowControl], by rw [hqueue.flowControl]⟩
        · refine .inr ⟨by rw [Core.stream?_eq, ← hstreams]; exact hold, hbegins hclosed, ?_, hfinal'⟩
          exact hnew ▸ hqueue
      · exact .inl ⟨t, hlive, .refl t⟩
  | @trailers s state hclosed hold _ _ _ hstate =>
    have hcan := recvHeaders_canSend hstate (ht.streams _ _ hold).2.notIdle
    have hsame : s.SameSend { s with state := state } := ⟨⟨rfl, rfl, rfl, hcan⟩, rfl, rfl⟩
    have hold' : c.stream? sid = some s := by rw [Core.stream?_eq, ← hstreams]; exact hold
    let base := (d.putStream sid { s with state := state }).log
      (.event (.trailersReceived sid (concatenateCookies raw)))
    have hbase : base.streams = c.streams.insert sid { s with state := state } :=
      congrArg (AList.insert sid _) hstreams
    exact resent_putClose (d := base) hold' hsame hbase hlive

/-- Nothing but a call that sends touches the sending half of a stream, frames that open windows
apart. -/
theorem calm_resent (h : Calm c l d) (ht : Tidy c)
    (hresponse : ∀ sid headers endStream, l ≠ .api (.sendResponse sid headers endStream))
    (htrailers : ∀ sid headers, l ≠ .api (.sendTrailers sid headers))
    (hlive : d.stream? sid' = some s') : Resent c l sid' s' := by
  cases h with
  | receive | peerGoaway | notify | activate | pong | discardData | reportData | resetGone
  | rejectGone | beginBlock | extendBlock | announce | ping | goaway | credit | creditGone =>
    exact resent_same rfl hlive
  | refuseData | peerReset | reset | reject | tunnel | overflow => exact resent_drop rfl hlive
  | @deliverData s s' f hold _ _ hstate _ _ hs =>
    have hsame : s.SameSend s' :=
      ⟨⟨by rw [hs], by rw [hs], by rw [hs], recvData_canSend hstate⟩, by rw [hs]; rfl, by rw [hs]; rfl⟩
    exact resent_putClose hold hsame rfl hlive
  | @creditStream s sid increment _ hold =>
    have hsame : s.SameSend { s with flowControl := s.flowControl.addRecv increment } :=
      ⟨⟨rfl, rfl, rfl, rfl⟩, rfl, rfl⟩
    exact resent_put hold hsame rfl hlive
  | wholeBlock f headers d hcont hadmits hlast _ houtcome =>
    refine outcome_resent (c := c) houtcome
      (ht.congr rfl ⟨rfl, rfl, rfl, rfl, Nat.le_max_left _ _⟩) rfl rfl ?_ hlive
    exact fun hclosed => .whole f hcont hadmits hlast hclosed
  | endBlock f headers d hcont hlast _ houtcome =>
    have ht' : Tidy
        (((c.log (.received (.continuation f))).decodeLast d).log (.decoded f.streamId headers)) :=
      ⟨ht.streams, ht.closed, fun _ h => (by cases h), ht.next⟩
    refine outcome_resent (c := c) houtcome ht' rfl rfl ?_ hlive
    exact fun hclosed => .last f hcont hlast hclosed
  | respond sid headers endStream => exact absurd rfl (hresponse sid headers endStream)
  | trail sid headers => exact absurd rfl (htrailers sid headers)

/-! ## Transitions that send neither HEADERS nor DATA -/

def Label.quiet : Label → Bool
  | .api (.startStream _ _) | .api (.sendResponse _ _ _) | .api (.sendTrailers _ _)
  | .api (.sendData _ _ _) | .flush => false
  | _ => true

/-- What a record is that such a transition left. -/
def Reput (c : Core) (l : Label) (sid : Nat) (s' : Stream) : Prop :=
  (∃ s, c.stream? sid = some s ∧ s.SameOutput s') ∨
    c.stream? sid = none ∧ Begins c l sid ∧ s'.sendBuffer = [] ∧ s'.pendingEndStream = false ∧
      s'.finalResponseSent = false

theorem Resent.reput (h : Resent c l sid s') : Reput c l sid s' := by
  obtain ⟨s, hold, hsame⟩ | ⟨hold, hbegins, hqueue, hfinal⟩ := h
  · exact .inl ⟨s, hold, hsame.toSameOutput⟩
  · exact .inr ⟨hold, hbegins, hqueue.sendBuffer, hqueue.pendingEndStream, hfinal⟩

/-- Only windows moved. -/
theorem reput_windows (h : c.streams.lookup sid = none ∧ d.streams.lookup sid = none ∨
      ∃ s fc, c.streams.lookup sid = some s ∧ d.streams.lookup sid = some { s with flowControl := fc })
    (hlive : d.stream? sid = some s') : Reput c l sid s' := by
  obtain ⟨_, hnone⟩ | ⟨s, fc, hold, hnew⟩ := h
  · cases hnone.symm.trans hlive
  · obtain rfl : { s with flowControl := fc } = s' := Option.some.inj (hnew.symm.trans hlive)
    exact .inl ⟨s, hold, rfl, rfl, rfl, rfl⟩

theorem change_reput (h : Change c l d) (ht : Tidy c) (hquiet : l.quiet = true)
    (hlive : d.stream? sid = some s') : Reput c l sid s' := by
  have hsame : d.streams = c.streams → Reput c l sid s' := fun hstreams =>
    (resent_same (congrArg _ hstreams) hlive).reput
  cases h with
  | step hstep =>
    cases hstep with
    | calm hcalm =>
      refine (calm_resent hcalm ht (fun _ _ _ hl => ?_) (fun _ _ hl => ?_) hlive).reput
      · rw [hl] at hquiet
        cases hquiet
      · rw [hl] at hquiet
        cases hquiet
    | wake hwake =>
      cases hwake with
      | update => exact hsame rfl
      | @updateStream s sid' increment _ hold =>
        apply reput_windows _ hlive
        by_cases heq : sid = sid'
        · subst heq
          exact .inr ⟨s, s.flowControl.addSend increment, hold, by simp⟩
        · cases hother : c.streams.lookup sid with
          | none => exact .inl ⟨rfl, by simp [heq, hother]⟩
          | some s => exact .inr ⟨s, s.flowControl, rfl, by simp [heq, hother]⟩
      | settings f streams _ hstreams =>
        obtain ⟨_, rfl⟩ | ⟨_, hmap⟩ := hstreams
        · exact hsame rfl
        · refine reput_windows ((hmap sid).imp id ?_) hlive
          rintro ⟨s, fc, hold, _, hnew⟩
          exact ⟨s, fc, hold, hnew⟩
    | emit => cases hquiet
    | start => cases hquiet
    | push => cases hquiet
  | fault hfault =>
    cases hfault with
    | settings f remote pending streams _ hstreams => exact reput_windows (hstreams sid) hlive
    | decoder | refused | badBlock | badLast | longBlock | longNext => exact hsame rfl

theorem calm_quiet (h : Calm c l d) : l.quiet = true ∨
    (∃ sid headers endStream, l = .api (.sendResponse sid headers endStream)) ∨
      ∃ sid headers, l = .api (.sendTrailers sid headers) := by
  cases h with
  | respond sid headers endStream => exact .inr (.inl ⟨sid, headers, endStream, rfl⟩)
  | trail sid headers => exact .inr (.inr ⟨sid, headers, rfl⟩)
  | announce _ hk => obtain rfl | rfl := hk <;> exact .inl rfl
  | credit _ _ hl => obtain rfl | rfl := hl <;> exact .inl rfl
  | receive | peerGoaway | notify | activate | pong | discardData | reportData | refuseData
  | deliverData | peerReset | reset | resetGone | reject | rejectGone | tunnel | overflow | beginBlock
  | extendBlock | wholeBlock | endBlock | ping | goaway | creditStream | creditGone => exact .inl rfl

theorem records_quiet (hquiet : l.quiet = true) {i : Item} (h : Records c l i) :
    (∀ f, i ≠ .sent (.headers f)) ∧ ∀ f, i ≠ .sent (.data f) := by
  constructor
  · rintro f rfl
    obtain ⟨_, rfl, _⟩ | ⟨_, ⟨_, rfl⟩ | ⟨_, rfl, _⟩⟩ := h <;> cases hquiet
  · rintro f rfl
    obtain ⟨_, rfl | ⟨_, _, _, rfl⟩⟩ := h <;> cases hquiet

end

end Http2
