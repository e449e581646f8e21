import Http2.Connection.Trace
import Http2.Lib.History

/-! Frames about single streams name streams that are not idle. -/
namespace Http2

open Hpack Lib Lib.Prog Connection

namespace Idle

/-- The stream left `idle`: HEADERS was sent for it, or received for it or for a later one. -/
def Known (sid : Nat) (trace : List Item) : Prop :=
  (∃ f : HeadersFrame, .sent (.headers f) ∈ trace ∧ f.streamId = sid) ∨
    ∃ f : HeadersFrame, .received (.headers f) ∈ trace ∧
      (f.streamId = sid ∨ sid < f.streamId ∧ f.streamId % 2 = 1)

/-- A frame that a peer answers with a connection error when its stream is idle. -/
def streamOf : Frame → Option Nat
  | .data f => some f.streamId
  | .rstStream sid _ => some sid
  | .windowUpdate sid _ => some sid
  | _ => none

/-- The frame, if it is such a one, was due. -/
def Due (i : Item) (earlier : List Item) : Prop :=
  ∀ f sid, i = .sent f → streamOf f = some sid → sid ≠ 0 → Known sid earlier

/-- Credit that is in range is given only to streams that are not idle. -/
def terms : Terms where
  frame _ _ := True
  refusal _ _ := True
  api c k :=
    match k with
    | .sendWindowUpdate sid increment => 0 < increment → increment ≤ maxWindowSize →
        sid = 0 ∨ c.isIdleStream sid = false
    | _ => True

theorem Known.mono {sid : Nat} {trace : List Item} (h : Known sid trace) (later : List Item) :
    Known sid (later ++ trace) := by
  obtain ⟨f, hf, hsid⟩ | ⟨f, hf, hsid⟩ := h
  · exact .inl ⟨f, List.mem_append_right _ hf, hsid⟩
  · exact .inr ⟨f, List.mem_append_right _ hf, hsid⟩

/-- The connection knows of no stream that is idle. -/
structure Justified (c : Core) : Prop where
  used : ∀ sid, c.Used sid → Known sid c.trace
  last : c.lastRecvStreamId ≠ 0 → ∃ f : HeadersFrame, .received (.headers f) ∈ c.trace ∧
    f.streamId = c.lastRecvStreamId ∧ f.streamId % 2 = 1
  frames : Always Due c.trace

namespace Justified

variable {c d : Core} {l : Label}

theorem below (h : Justified c) {sid : Nat} (hodd : sid % 2 = 1) (hle : sid ≤ c.lastRecvStreamId) :
    Known sid c.trace := by
  obtain ⟨f, hf, hsid, hodd'⟩ := h.last (by omega)
  obtain heq | hlt := Nat.eq_or_lt_of_le (hsid ▸ hle)
  · exact .inr ⟨f, hf, .inl heq.symm⟩
  · exact .inr ⟨f, hf, .inr ⟨hlt, hodd'⟩⟩

theorem known (h : Justified c) {sid : Nat} (hidle : c.isIdleStream sid = false) :
    Known sid c.trace := by
  unfold Core.isIdleStream at hidle
  split at hidle
  · rename_i hlive
    exact h.used sid (.inl hlive)
  · split at hidle
    · rename_i hin
      exact h.used sid (.inr hin)
    · split at hidle
      · cases hidle
      · refine h.below (by omega) ?_
        simpa using hidle

/-- A stream that is created is announced by the frame that creates it. -/
theorem begins (h : Justified c) (ht : Tidy c) (hchange : Change c l d) {sid : Nat}
    (hbegins : Begins c l sid) : Known sid d.trace := by
  obtain ⟨new, heq, _⟩ := hchange.extends
  cases hbegins with
  | request headers endStream =>
    cases change_request hchange with
    | request s =>
      obtain ⟨f, hsid, _, hf⟩ := sendBlock_sent _ c.nextStreamId headers endStream
      exact .inl ⟨f, hf, hsid⟩
  | whole f =>
    rw [heq]
    refine .inr ⟨f, ?_, .inl rfl⟩
    simp [Label.cause]
  | last f hcont =>
    obtain ⟨hodd, hle⟩ := ht.block _ hcont
    have hknown := (h.below hodd hle).mono (new ++ [.received (.continuation f)])
    simpa [heq, Label.cause] using hknown

/-- What a transition records was due, at the latest when its cause was. -/
theorem due (h : Justified c) (ht : Tidy c) (hl : terms.Meets c l) {i : Item}
    (hi : Records c l i) (between : List Item) : Due i (between ++ (l.cause ++ c.trace)) := by
  rintro f sid rfl hstream hsid
  have hknown : Known sid c.trace → Known sid (between ++ (l.cause ++ c.trace)) := by
    intro hknown
    exact (hknown.mono l.cause).mono between
  cases f with
  | data f =>
    obtain rfl : f.streamId = sid := by simpa [streamOf] using hstream
    exact hknown (h.used _ (.inl hi.1))
  | rstStream sid' code =>
    obtain rfl : sid' = sid := by simpa [streamOf] using hstream
    obtain hidle | ⟨f, rfl, rfl⟩ | hcont := hi
    · exact hknown (h.known hidle)
    · exact .inr ⟨f, by simp [Label.cause], .inl rfl⟩
    · obtain ⟨hodd, hle⟩ := ht.block _ hcont
      exact hknown (h.below hodd hle)
  | windowUpdate sid' increment =>
    obtain rfl : sid' = sid := by simpa [streamOf] using hstream
    obtain hzero | ⟨rfl, hlive | ⟨hpos, hmax⟩⟩ := hi
    · exact absurd hzero hsid
    · exact hknown (h.used _ (.inl hlive))
    · exact hknown (h.known ((hl hpos hmax).resolve_left hsid))
  | headers | priority | settings | pushPromise | ping | goaway | continuation | priorityUpdate
  | unknown => cases hstream

theorem change (h : Justified c) (ht : Tidy c) (hl : terms.Meets c l) (hchange : Change c l d) :
    Justified d := by
  obtain ⟨new, heq, hnew⟩ := hchange.extends
  refine ⟨fun sid hused => ?_, fun hlast => ?_, ?_⟩
  · obtain hused | hbegins := hchange.touches.used hused
    · rw [heq]
      exact ((h.used sid hused).mono _).mono _
    · exact h.begins ht hchange hbegins
  · obtain hsame | ⟨f, rfl, hadmits, hmax⟩ := hchange.lastRecvStreamId
    · rw [hsame] at hlast ⊢
      obtain ⟨f, hf, hsid⟩ := h.last hlast
      exact ⟨f, by simp [heq, hf], hsid⟩
    · by_cases hle : c.lastRecvStreamId ≤ f.streamId
      · refine ⟨f, by simp [heq, Label.cause], ?_, hadmits.1⟩
        rw [hmax, Nat.max_eq_right hle]
      · rw [hmax, Nat.max_eq_left (by omega)]
        obtain ⟨f', hf', hsid⟩ := h.last (by omega)
        exact ⟨f', by simp [heq, hf'], hsid⟩
  · rw [heq]
    have hcause : Always Due (l.cause ++ c.trace) := by
      refine h.frames.append fun i hi between f sid heq' => ?_
      cases l <;> simp [Label.cause, heq'] at hi
    exact hcause.append fun i hi between => h.due ht hl (hnew i hi) between

end Justified

theorem evolves_justified {role : Role} {limits : Limits} {c : Core}
    (h : Evolves terms (Core.new role limits) c) : Justified c := by
  induction h with
  | refl =>
    refine ⟨fun sid hused => ?_, fun hlast => absurd rfl hlast, trivial⟩
    obtain hlive | hin := hused
    · cases hlive
    · cases hin
  | tail hevolves hchange ih =>
    obtain ⟨l, hl, hchange⟩ := hchange
    exact ih.change (evolves_tidy (Tidy.new role limits) hevolves) hl hchange

/-- Whatever is received, a stream that a DATA, RST_STREAM or WINDOW_UPDATE names was not idle when
the frame was sent. -/
theorem sent_not_idle {role : Role} {limits : Limits} {history : List Record} {c : Connection}
    (h : RunOf terms (Connection.new role limits) history c) (f : Frame) (sid : Nat)
    (later earlier : List Item) (hsent : c.trace = later ++ .sent f :: earlier)
    (hstream : streamOf f = some sid) (hsid : sid ≠ 0) : Known sid earlier := by
  have hframes := (evolves_justified (run_evolves h)).frames
  rw [hsent] at hframes
  exact hframes.at f sid rfl hstream hsid

/-- A request that is taken back. -/
theorem sent_not_idle_reset :
    ∃ history c earlier, RunOf terms (Connection.new .client .default) history c ∧
      c.trace = [.event (.streamReset 1 .cancel 0)] ++ .sent (.rstStream 1 8) :: earlier ∧
      Known 1 earlier := by
  let c₁ := ((Call.startStream getRequest true).exec (Connection.new .client .default)).2
  have hrun : RunOf terms (Connection.new .client .default) _ _ :=
    .call (c := c₁) (.resetStream 1 .cancel) trivial trivial
      (.call (.startStream getRequest true) trivial trivial .start)
  have hsent : ((Call.resetStream 1 .cancel).exec c₁).2.trace =
    [.event (.streamReset 1 .cancel 0)] ++ .sent (.rstStream 1 8) :: c₁.trace := by
      decide +kernel
  exact ⟨_, _, c₁.trace, hrun, hsent, sent_not_idle hrun _ 1 _ _ hsent rfl (by decide)⟩

/-- `send_window_update` takes any stream id. -/
theorem sent_not_idle_any_false :
    ∃ history c earlier, Run (Connection.new .client .default) history c ∧
      c.trace = [] ++ .sent (.windowUpdate 5 1) :: earlier ∧
      streamOf (.windowUpdate 5 1) = some 5 ∧ ¬ Known 5 earlier := by
  have hrun : Run (Connection.new .client .default) _ _ := .call (.sendWindowUpdate 5 1) .start
  refine ⟨_, _, [], hrun, rfl, rfl, ?_⟩
  rintro (⟨f, hf, _⟩ | ⟨f, hf, _⟩) <;> cases hf

end Idle

end Http2
