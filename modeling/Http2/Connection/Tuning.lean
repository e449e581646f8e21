import Http2.Connection.Trace

/-! What the peer's SETTINGS and our own header blocks do to the values that SETTINGS governs. -/
namespace Http2

open Hpack Connection

/-- The items that SETTINGS frames of the peer and our header blocks leave. -/
def Item.isMark : Item → Bool
  | .received (.settings f) => !f.ack
  | .sent (.settings f) => f.ack
  | .encoded _ _ => true
  | _ => false

structure Tuning where
  remoteSettings : Settings
  pendingTableSizeUpdate : PendingUpdate
  hpackEncoder : Encoder
  marks : List Item

@[simps] def Core.tuning (c : Core) : Tuning where
  remoteSettings := c.remoteSettings
  pendingTableSizeUpdate := c.pendingTableSizeUpdate
  hpackEncoder := c.hpackEncoder
  marks := c.trace.filter Item.isMark

/-- What transitions make of them. -/
inductive Tunes (c : Core) : Label → Tuning → Prop
  | same (l : Label) : Tunes c l c.tuning
  | settings (f : SettingsFrame) (hack : f.ack = false) :
      Tunes c (.frame (.settings f)) ⟨f.settings.foldl Settings.apply c.remoteSettings,
        trackTableSize c.remoteSettings.headerTableSize
          (f.settings.foldl Settings.apply c.remoteSettings).headerTableSize c.pendingTableSizeUpdate,
        c.hpackEncoder.setMaxTableSize
          (f.settings.foldl Settings.apply c.remoteSettings).headerTableSize.toNat,
        .sent (.settings ⟨true, []⟩) :: .received (.settings f) :: c.tuning.marks⟩
  | block (k : Call) (sid : Nat) (headers : List HeaderField) :
      Tunes c (.api k) ⟨c.remoteSettings, none, (c.hpackEncoder.encode headers).1,
        .encoded sid headers :: c.tuning.marks⟩

namespace Core

theorem log_tuning {i : Item} (c : Core) (hi : i.isMark = false) : (c.log i).tuning = c.tuning := by
  simp [tuning, hi]

theorem noteSuccessful_tuning (c : Core) (sid : Nat) :
    (c.noteSuccessful sid).tuning = c.tuning := rfl

theorem closeIf_tuning (c : Core) (sid : Nat) (closed : Bool) :
    (c.closeIf sid closed).tuning = c.tuning := by
  unfold closeIf
  split <;> rfl

/-- The frames of a block leave no mark. -/
theorem logSent_tuning (c : Core) {fs : List Frame} (h : ∀ f ∈ fs, (Item.sent f).isMark = false) :
    (c.logSent fs).tuning = c.tuning := by
  induction fs generalizing c with
  | nil => rfl
  | cons f fs ih =>
    rw [logSent, ih _ fun g hg => h g (List.mem_cons_of_mem f hg), log_tuning c (h f List.mem_cons_self)]

theorem sendBlock_tuning (c : Core) (sid : Nat) (headers : List HeaderField) (endStream : Bool) :
    (c.sendBlock sid headers endStream).tuning = ⟨c.remoteSettings, none,
      (c.hpackEncoder.encode headers).1, .encoded sid headers :: c.tuning.marks⟩ := by
  unfold sendBlock
  rw [logSent_tuning]
  · rfl
  · intro f hf
    obtain ⟨first, _, _, rest, hframes, hrest⟩ := blockFrames_cases sid c.remoteSettings.maxFrameSize
      endStream ((c.hpackEncoder.encode headers).1.encodePending c.pendingTableSizeUpdate ++
        (c.hpackEncoder.encode headers).2)
    rw [hframes] at hf
    obtain rfl | hf := List.mem_cons.1 hf
    · rfl
    · obtain ⟨cf, rfl, _⟩ := hrest f hf
      rfl

end Core

theorem opens_tuning {c base : Core} {sid : Nat} {s : Stream} (h : c.Opens sid s base) :
    base.tuning = c.tuning := by
  obtain ⟨_, rfl⟩ | ⟨_, _, rfl⟩ := h <;> rfl

theorem outcome_tuning {c c' : Core} {sid : Nat} {raw : List HeaderField} {endStream : Bool}
    (h : Outcome sid raw endStream c c') : c'.tuning = c.tuning := by
  cases h with
  | ignored | tunnel | gone => rfl
  | reset code _ _ hopens =>
    refine Eq.trans ?_ (opens_tuning hopens)
    rfl
  | headers protocol _ hopens =>
    rw [Core.noteSuccessful_tuning, Core.closeIf_tuning]
    refine Eq.trans ?_ (opens_tuning hopens)
    rfl
  | trailers =>
    rw [Core.noteSuccessful_tuning, Core.closeIf_tuning]
    rfl

theorem calm_tunes {c c' : Core} {l : Label} (h : Calm c l c') : Tunes c l c'.tuning := by
  cases h with
  | receive f hinert =>
    rw [Core.log_tuning c]
    · exact .same _
    · cases f with
      | settings f => exact congrArg (! ·) (hinert : f.ack = true)
      | _ => rfl
  | wholeBlock f _ _ _ _ _ _ houtcome =>
    rw [outcome_tuning houtcome]
    exact .same _
  | endBlock f _ _ _ _ _ houtcome =>
    rw [outcome_tuning houtcome]
    exact .same _
  | respond sid headers endStream =>
    rw [Core.closeIf_tuning, Core.sendBlock_tuning]
    exact .block _ sid headers
  | trail sid headers =>
    rw [Core.closeIf_tuning, Core.sendBlock_tuning]
    exact .block _ sid headers
  | deliverData =>
    rw [Core.closeIf_tuning]
    exact .same _
  | peerGoaway | notify | activate | pong | discardData | reportData | refuseData | peerReset | reset
  | resetGone | reject | rejectGone | tunnel | overflow | beginBlock | extendBlock | announce | ping
  | goaway | credit | creditStream | creditGone => exact .same _

theorem step_tunes {c c' : Core} {l : Label} (h : Step c l c') : Tunes c l c'.tuning := by
  cases h with
  | calm h => exact calm_tunes h
  | wake h =>
    cases h with
    | update | updateStream => exact .same _
    | settings f streams hack =>
      have hmarks : (.sent (.settings ⟨true, []⟩) :: .received (.settings f) :: c.trace).filter
          Item.isMark = .sent (.settings ⟨true, []⟩) :: .received (.settings f) :: c.tuning.marks := by
        have hreceived : (Item.received (.settings f)).isMark = true := congrArg (! ·) hack
        rw [List.filter_cons_of_pos rfl, List.filter_cons_of_pos hreceived]
        rfl
      have htunes := Tunes.settings (c := c) f hack
      rw [← hmarks] at htunes
      exact htunes
  | emit h =>
    cases h with
    | chunk => exact .same _
    | last =>
      rw [Core.closeIf_tuning]
      exact .same _
  | start h =>
    cases h with
    | request s =>
      rw [Core.sendBlock_tuning]
      exact .block _ _ _
  | push h =>
    cases h with
    | queue => exact .same _
    | emptyEnd =>
      rw [Core.closeIf_tuning]
      exact .same _

end Http2
