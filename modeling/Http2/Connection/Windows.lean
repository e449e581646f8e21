import Http2.Connection.Sending

/-! The send windows of live streams: they started from the peer's initial size, and stay below the
largest that there is. -/
namespace Http2

open Hpack Connection

/-- Every live stream took part in every change of the initial size, and its window is in bounds. -/
def Windowed (bound : Int) (c : Core) : Prop :=
  ∀ sid s, c.stream? sid = some s →
    s.flowControl.sendInitial = c.remoteSettings.initialWindowSize ∧ s.flowControl.sendWindow ≤ bound

variable {bound : Int} {c d : Core} {sid : Nat}

theorem new_windowed (role : Role) (limits : Limits) : Windowed bound (Core.new role limits) := by
  intro sid s h
  simp [Core.new] at h

theorem Windowed.congr (h : Windowed bound c) (hstreams : d.streams = c.streams)
    (hremote : d.remoteSettings = c.remoteSettings) : Windowed bound d := by
  intro sid s hlive
  rw [Core.stream?_eq, hstreams] at hlive
  rw [hremote]
  exact h sid s hlive

theorem Windowed.put (sid : Nat) {s : Stream} (h : Windowed bound c)
    (hs : s.flowControl.sendInitial = c.remoteSettings.initialWindowSize ∧
      s.flowControl.sendWindow ≤ bound)
    (hstreams : d.streams = c.streams.insert sid s) (hremote : d.remoteSettings = c.remoteSettings) :
    Windowed bound d := by
  intro sid' s' hlive
  rw [Core.stream?_eq, hstreams, lookup_insert_ite] at hlive
  rw [hremote]
  split at hlive
  · obtain rfl : s = s' := Option.some.inj hlive
    exact hs
  · exact h sid' s' hlive

theorem closeIf_remoteSettings (closed : Bool) :
    (c.closeIf sid closed).remoteSettings = c.remoteSettings :=
  congrArg Status.remoteSettings (Core.closeIf_status c sid closed)

theorem Windowed.closeIf (h : Windowed bound c) (closed : Bool) : Windowed bound (c.closeIf sid closed) := by
  intro sid' s hlive
  rw [Core.stream?_eq, Core.closeIf_lookup] at hlive
  split at hlive
  · cases hlive
  · rw [closeIf_remoteSettings]
    exact h sid' s hlive

theorem sendBlock_remoteSettings (headers : List HeaderField) (endStream : Bool) :
    (c.sendBlock sid headers endStream).remoteSettings = c.remoteSettings :=
  congrArg Status.remoteSettings (Core.sendBlock_status c sid headers endStream)

theorem sameQueue_window {s : Stream} (hsize : (c.remoteSettings.initialWindowSize : Int) ≤ bound)
    (hs : (c.newStream sid).SameQueue s) :
    s.flowControl.sendInitial = c.remoteSettings.initialWindowSize ∧
      s.flowControl.sendWindow ≤ bound := by
  rw [hs.flowControl]
  exact ⟨rfl, hsize⟩

/-- A change of the initial size moves every window with it. -/
theorem retuned_windowed {size : WindowSize} {streams : AList fun _ : Nat => Stream}
    (h : Windowed maxWindowSize c) (hstreams : c.Retuned size streams) (hd : d.streams = streams)
    (hsize : d.remoteSettings.initialWindowSize = size) : Windowed maxWindowSize d := by
  intro sid s hlive
  rw [Core.stream?_eq, hd] at hlive
  rw [hsize]
  obtain ⟨rfl, rfl⟩ | ⟨_, hmap⟩ := hstreams
  · exact h sid s hlive
  · obtain ⟨_, hnone⟩ | ⟨s', fc, _, hupdate, hnew⟩ := hmap sid
    · cases hnone.symm.trans hlive
    · obtain rfl : { s' with flowControl := fc } = s := Option.some.inj (hnew.symm.trans hlive)
      obtain ⟨hle, rfl⟩ := FlowControl.updateInitialWindowSize_eq_ok.1 hupdate
      exact ⟨rfl, hle⟩

theorem calm_remoteSettings {l : Label} (h : Calm c l d) : d.remoteSettings = c.remoteSettings := by
  cases h with
  | wholeBlock f headers d' _ _ _ _ houtcome =>
    obtain ⟨_, _, hstatus⟩ := outcome_status houtcome
    exact congrArg Status.remoteSettings hstatus
  | endBlock f headers d' _ _ _ houtcome =>
    obtain ⟨_, _, hstatus⟩ := outcome_status houtcome
    exact congrArg Status.remoteSettings hstatus
  | respond | trail => exact (closeIf_remoteSettings _).trans (sendBlock_remoteSettings _ _)
  | deliverData => exact closeIf_remoteSettings _
  | _ => rfl

/-- A stream that sends a header section keeps its window. -/
theorem section_windowed {s s' : Stream} {headers : List HeaderField} {endStream closed : Bool}
    (h : Windowed bound c) (hlive : c.stream? sid = some s) (hflow : s'.flowControl = s.flowControl) :
    Windowed bound (((c.putStream sid s').sendBlock sid headers endStream).closeIf sid closed) := by
  refine Windowed.closeIf (h.put sid (s := s') ?_ ?_ ?_) closed
  · rw [hflow]
    exact h sid s hlive
  · exact Core.sendBlock_streams ..
  · exact sendBlock_remoteSettings _ _

theorem calm_windowed {l : Label} (ht : Tidy c) (h : Windowed bound c)
    (hsize : (c.remoteSettings.initialWindowSize : Int) ≤ bound) (hcalm : Calm c l d) :
    Windowed bound d := by
  by_cases hresponse : ∃ sid headers endStream, l = .api (.sendResponse sid headers endStream)
  · obtain ⟨sid, headers, endStream, rfl⟩ := hresponse
    cases hcalm with
    | respond _ _ _ hlive _ _ _ _ _ hs => exact section_windowed h hlive (by rw [hs]; rfl)
    | announce _ hk => obtain hk | hk := hk <;> cases hk
    | credit _ _ hl => obtain hl | hl := hl <;> cases hl
  by_cases htrailers : ∃ sid headers, l = .api (.sendTrailers sid headers)
  · obtain ⟨sid, headers, rfl⟩ := htrailers
    cases hcalm with
    | trail _ _ hlive => exact section_windowed h hlive rfl
    | announce _ hk => obtain hk | hk := hk <;> cases hk
    | credit _ _ hl => obtain hl | hl := hl <;> cases hl
  intro sid s hlive
  rw [calm_remoteSettings hcalm]
  obtain ⟨s', hold, hsame⟩ | ⟨_, _, hfresh, _⟩ := calm_resent hcalm ht
    (fun sid headers endStream hl => hresponse ⟨sid, headers, endStream, hl⟩)
    (fun sid headers hl => htrailers ⟨sid, headers, hl⟩) hlive
  · rw [hsame.sendInitial, hsame.sendWindow]
    exact h sid s' hold
  · exact sameQueue_window hsize hfresh

/-- Only WINDOW_UPDATE and SETTINGS raise a window, and not above the largest one. -/
theorem step_windowed {l : Label} (ht : Tidy c) (h : Windowed bound c)
    (hsize : (c.remoteSettings.initialWindowSize : Int) ≤ bound)
    (hbound : bound = maxWindowSize ∨ ∀ f, l ≠ .frame f) (hstep : Step c l d) : Windowed bound d := by
  cases hstep with
  | calm hcalm => exact calm_windowed ht h hsize hcalm
  | wake hwake =>
    obtain rfl := hbound.resolve_right fun h => h _ rfl
    cases hwake with
    | update => exact h.congr rfl rfl
    | @updateStream s sid increment _ hlive hmax =>
      exact h.put sid (s := { s with flowControl := s.flowControl.addSend increment })
        ⟨(h sid s hlive).1, hmax⟩ rfl rfl
    | settings f streams _ hstreams => exact retuned_windowed h hstreams rfl rfl
  | emit hemit =>
    cases hemit with
    | @chunk s sid data rest hlive =>
      obtain ⟨hinitial, hle⟩ := h sid s hlive
      refine h.put sid (s := { s with
        sendBuffer := rest
        flowControl := s.flowControl.addSend (-data.length) }) ⟨hinitial, ?_⟩ rfl rfl
      simp only [FlowControl.addSend_sendWindow]
      omega
    | @last s state sid hlive =>
      obtain ⟨hinitial, hle⟩ := h sid s hlive
      refine Windowed.closeIf ?_ _
      refine h.put sid (s := { s with
        sendBuffer := []
        pendingEndStream := false
        state := state
        flowControl := s.flowControl.addSend (-s.sendBuffer.length) }) ⟨hinitial, ?_⟩ rfl rfl
      simp only [FlowControl.addSend_sendWindow]
      omega
  | start hstart =>
    cases hstart with
    | request s _ _ _ _ _ hs =>
      refine h.put c.nextStreamId (sameQueue_window hsize (start_sameQueue hs)) ?_ ?_
      · simp [Core.openStream]
      · exact sendBlock_remoteSettings _ _
  | @push sid data endStream _ hpush =>
    cases hpush with
    | @queue s data endStream hlive =>
      exact h.put sid (s := { s with
        sendBuffer := s.sendBuffer ++ data
        pendingEndStream := endStream }) (h sid s hlive) rfl rfl
    | @emptyEnd s state hlive =>
      refine Windowed.closeIf ?_ _
      exact h.put sid (s := { s with state := state }) (h sid s hlive) rfl rfl

theorem steps_windowed {T : Terms} (ht : Tidy c) (h : Windowed bound c)
    (hsize : ∀ d, Steps T c d → (d.remoteSettings.initialWindowSize : Int) ≤ bound)
    (hbound : bound = maxWindowSize ∨ ∀ c f, ¬ T.frame c f) (hsteps : Steps T c d) :
    Windowed bound d := by
  induction hsteps with
  | refl => exact h
  | tail hsteps hstep ih =>
    obtain ⟨l, hl, hstep⟩ := hstep
    refine step_windowed (steps_tidy ht hsteps) ih (hsize _ hsteps) ?_ hstep
    refine hbound.imp_right fun hno f heq => ?_
    subst heq
    exact hno _ f hl

end Http2
