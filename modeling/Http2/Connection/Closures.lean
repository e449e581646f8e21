import Http2.Connection.Life
import Http2.Connection.Passes

/-! How streams leave the map: into the set of the closed ones, each with its last event, one at a
time. The set forgets ids only when more streams have ended than it holds. -/
namespace Http2

open Hpack Lib Lib.Prog Connection

/-- The number of streams that have ended. -/
def closures (trace : List Item) : Nat := trace.countP Life.isEnd

@[simp] theorem closures_cons (i : Item) (trace : List Item) :
    closures (i :: trace) = closures trace + if Life.isEnd i then 1 else 0 := List.countP_cons ..

/-- A transition ends no stream, or one that was live or that it began. -/
inductive Shelves (c : Core) (l : Label) (d : Core) : Prop
  | keeps (hclosed : d.closedStreams = c.closedStreams)
      (hlive : ∀ sid, (c.stream? sid).isSome = true → (d.stream? sid).isSome = true)
      (hends : closures c.trace ≤ closures d.trace)
  | shelves (sid : Nat) (hclosed : d.closedStreams = c.closedStreams.insert sid)
      (hgone : d.stream? sid = none) (hothers : ∀ sid' ≠ sid, d.stream? sid' = c.stream? sid')
      (hwas : (c.stream? sid).isSome = true ∨ Begins c l sid) (hends : closures c.trace < closures d.trace)

section

variable {c d e : Core} {l : Label} {sid : Nat} {s s' : Stream}

theorem was_live (h : c.stream? sid = some s) : (c.stream? sid).isSome = true ∨ Begins c l sid :=
  .inl (by simp [h])

theorem shelves_same (hstreams : d.streams = c.streams) (hclosed : d.closedStreams = c.closedStreams)
    (hends : closures c.trace ≤ closures d.trace) : Shelves c l d :=
  .keeps hclosed (fun sid h => by simpa [hstreams] using h) hends

theorem shelves_put (sid : Nat) (s : Stream) (hstreams : d.streams = c.streams.insert sid s)
    (hclosed : d.closedStreams = c.closedStreams)
    (hends : closures c.trace ≤ closures d.trace) : Shelves c l d := by
  refine .keeps hclosed (fun sid' h => ?_) hends
  rw [Core.stream?_eq, hstreams]
  by_cases heq : sid' = sid
  · subst heq
    simp
  · simpa [heq] using h

theorem shelves_drop (hothers : ∀ sid' ≠ sid, d.stream? sid' = c.stream? sid')
    (hclosed : d.closedStreams = c.closedStreams) (hwas : (c.stream? sid).isSome = true ∨ Begins c l sid)
    (hends : closures c.trace < closures d.trace) : Shelves c l (d.dropStream sid) := by
  refine .shelves sid (by simp [hclosed]) (by simp) (fun sid' hne => ?_) hwas hends
  simpa [hne] using hothers sid' hne

theorem shelves_reset {code : ErrorCode} {consumed : Nat}
    (hothers : ∀ sid' ≠ sid, d.stream? sid' = c.stream? sid')
    (hclosed : d.closedStreams = c.closedStreams) (hwas : (c.stream? sid).isSome = true ∨ Begins c l sid)
    (hends : closures c.trace ≤ closures d.trace) :
    Shelves c l (d.resetWith sid code consumed) := by
  refine shelves_drop (d := (d.log (.sent (.rstStream sid code.asU32))).log
    (.event (.streamReset sid code consumed))) hothers hclosed hwas ?_
  simp [Life.isEnd]
  omega

theorem shelves_closeIf (s' : Stream) {closed : Bool} (hstreams : d.streams = c.streams.insert sid s')
    (hclosed : d.closedStreams = c.closedStreams) (hwas : (c.stream? sid).isSome = true ∨ Begins c l sid)
    (hends : closures c.trace ≤ closures d.trace) : Shelves c l (d.closeIf sid closed) := by
  unfold Core.closeIf
  split
  · refine shelves_drop (d := d.log (.event (.streamClosed sid))) (fun sid' hne => ?_) hclosed hwas ?_
    · simp [hstreams, hne]
    · simp [Life.isEnd]
      omega
  · exact shelves_put sid s' hstreams hclosed hends

/-- From a state that differs in its history and in nothing that matters here. -/
theorem Shelves.congr {d' : Core} (h : Shelves c l d) (hstreams : d'.streams = d.streams)
    (hclosed : d'.closedStreams = d.closedStreams) (htrace : d'.trace = d.trace) : Shelves c l d' := by
  cases h with
  | keeps hsame hlive hends =>
    refine .keeps (hclosed.trans hsame) (fun sid h => ?_) (htrace ▸ hends)
    rw [Core.stream?_eq, hstreams]
    exact hlive sid h
  | shelves sid hsame hgone hothers hwas hends =>
    refine .shelves sid (hclosed.trans hsame) ?_ (fun sid' hne => ?_) hwas (htrace ▸ hends)
    · rw [Core.stream?_eq, hstreams]
      exact hgone
    · rw [Core.stream?_eq, hstreams]
      exact hothers sid' hne

theorem outcome_shelves {raw : List HeaderField} {endStream : Bool} (h : Outcome sid raw endStream e d)
    (hstreams : e.streams = c.streams) (hclosed : e.closedStreams = c.closedStreams)
    (hends : closures c.trace ≤ closures e.trace)
    (hbegins : c.closedStreams.contains sid = false → Begins c l sid) : Shelves c l d := by
  have hlookup : ∀ sid', e.stream? sid' = c.stream? sid' := fun sid' => by simp [hstreams]
  cases h with
  | ignored => exact shelves_same hstreams hclosed hends
  | @reset s base code _ hfree hopens =>
    rw [hclosed] at hfree
    have hwas := hbegins hfree
    have hreset : Shelves c l (base.resetWith sid code 0) := by
      obtain ⟨_, rfl⟩ | ⟨_, _, rfl⟩ := hopens
      · exact shelves_reset (fun sid' _ => hlookup sid') hclosed (.inr hwas) hends
      · refine shelves_reset (d := e.openStream sid _) (fun sid' hne => ?_) hclosed (.inr hwas) ?_
        · simp [Core.openStream, hne, hstreams]
        · simpa [Core.openStream, Life.isEnd] using hends
    exact hreset.congr rfl rfl rfl
  | tunnel hfree =>
    rw [hclosed] at hfree
    exact shelves_reset (fun sid' _ => hlookup sid') hclosed (.inr (hbegins hfree)) hends
  | gone => exact shelves_same hstreams hclosed (by simpa [Life.isEnd] using hends)
  | @headers s s' base protocol hfree hopens =>
    rw [hclosed] at hfree
    have hput : base.streams.insert sid s' = c.streams.insert sid s' := by
      rw [(opens_base hopens).1, hstreams]
    have hbase : base.closedStreams = c.closedStreams := (opens_base hopens).2.2.closed.trans hclosed
    have hbaseEnds : closures c.trace ≤ closures base.trace := by
      obtain ⟨_, rfl⟩ | ⟨_, _, rfl⟩ := hopens
      · exact hends
      · simpa [Core.openStream, Life.isEnd] using hends
    let told : Item := .event (.headersReceived sid (concatenateCookies raw) endStream protocol)
    have hclose : Shelves c l (((base.putStream sid s').log told).closeIf sid s'.state.isClosed) :=
      shelves_closeIf s' (d := (base.putStream sid s').log told) hput hbase (.inr (hbegins hfree))
        (by simpa [told, Life.isEnd] using hbaseEnds)
    exact hclose.congr rfl rfl rfl
  | @trailers s state hfree =>
    rw [hclosed] at hfree
    let told : Item := .event (.trailersReceived sid (concatenateCookies raw))
    have hclose : Shelves c l (((e.putStream sid { s with state := state }).log told).closeIf sid
        state.isClosed) := by
      let put := (e.putStream sid { s with state := state }).log told
      refine shelves_closeIf { s with state := state } (d := put) ?_ hclosed (.inr (hbegins hfree)) ?_
      · simp [put, hstreams]
      · simpa [put, told, Life.isEnd] using hends
    exact hclose.congr rfl rfl rfl

theorem burst_closures {headers : List HeaderField} {endStream : Bool} {items trace : List Item}
    (h : Burst sid headers endStream items) : closures (items ++ trace) = closures trace := by
  obtain ⟨f, fs, _, _, _, rfl⟩ := h
  simp [closures, Life.isEnd, List.countP_append, List.countP_map]

theorem sendBlock_closures (c : Core) (sid : Nat) (headers : List HeaderField) (endStream : Bool) :
    closures (c.sendBlock sid headers endStream).trace = closures c.trace := by
  obtain ⟨items, hitems, htrace⟩ := sendBlock_burst c sid headers endStream
  rw [htrace, burst_closures hitems]

theorem calm_shelves (h : Calm c l d) : Shelves c l d := by
  cases h with
  | receive | peerGoaway | activate | pong | discardData | reportData | resetGone | rejectGone
  | beginBlock | extendBlock | announce | ping | goaway | credit | creditGone =>
    exact shelves_same rfl rfl (by simp [Core.chargeRecv, Life.isEnd])
  | notify e he =>
    refine shelves_same rfl rfl ?_
    simp
  | refuseData f code hlive =>
    exact shelves_reset (fun _ _ => rfl) rfl (was_live hlive) (by simp [Core.chargeRecv, Life.isEnd])
  | @deliverData s s' f hlive =>
    exact shelves_closeIf s' rfl rfl (was_live hlive) (by simp [Core.chargeRecv, Life.isEnd])
  | peerReset sid code hlive =>
    exact shelves_drop (fun _ _ => rfl) rfl (was_live hlive) (by simp [Life.isEnd])
  | reset sid code hlive => exact shelves_reset (fun _ _ => rfl) rfl (was_live hlive) (Nat.le_refl _)
  | reject sid code _ hlive =>
    exact shelves_reset (fun _ _ => rfl) rfl (was_live hlive) (by simp [Life.isEnd])
  | tunnel header payload _ hlive =>
    exact shelves_reset (fun _ _ => rfl) rfl (was_live hlive) (by simp [Life.isEnd])
  | overflow sid increment _ hlive =>
    exact shelves_reset (fun _ _ => rfl) rfl (was_live hlive) (by simp [Life.isEnd])
  | creditStream sid increment _ hlive => exact shelves_put _ _ rfl rfl (by simp [Life.isEnd])
  | @respond s s' sid headers endStream hlive =>
    refine shelves_closeIf s' (by simp) (by simp) (was_live hlive) ?_
    rw [sendBlock_closures]
    exact Nat.le_refl _
  | @trail s state sid headers hlive =>
    refine shelves_closeIf { s with state := state } (by simp) (by simp) (was_live hlive) ?_
    rw [sendBlock_closures]
    exact Nat.le_refl _
  | wholeBlock f headers d hcont hadmits hlast _ houtcome =>
    exact outcome_shelves houtcome rfl rfl (by simp [Life.isEnd]) fun hclosed =>
      .whole f hcont hadmits hlast hclosed
  | endBlock f headers d hcont hlast _ houtcome =>
    exact outcome_shelves houtcome rfl rfl (by simp [Life.isEnd]) fun hclosed => .last f hcont hlast hclosed

theorem step_shelves (h : Step c l d) : Shelves c l d := by
  cases h with
  | calm h => exact calm_shelves h
  | wake h =>
    cases h with
    | update => exact shelves_same rfl rfl (by simp [Life.isEnd])
    | updateStream sid _ _ hlive => exact shelves_put _ _ rfl rfl (by simp [Life.isEnd])
    | settings f streams _ hstreams =>
      refine .keeps rfl (fun sid hsome => ?_) (by simp [Life.isEnd])
      obtain ⟨_, rfl⟩ | ⟨_, hmap⟩ := hstreams
      · exact hsome
      · obtain ⟨hold, _⟩ | ⟨s, fc, _, _, hnew⟩ := hmap sid
        · simp [hold] at hsome
        · simp [hnew]
  | emit h =>
    cases h with
    | chunk sid _ _ hlive => exact shelves_put _ _ rfl rfl (by simp [Core.chargeSend, Life.isEnd])
    | last sid hlive =>
      exact shelves_closeIf _ rfl rfl (was_live hlive) (by simp [Core.chargeSend, Life.isEnd])
  | start h =>
    cases h with
    | request s =>
      refine shelves_put c.nextStreamId s ?_ ?_ ?_
      · simp [Core.openStream]
      · simp [Core.openStream]
      · rw [sendBlock_closures]
        simp [Core.openStream, Life.isEnd]
  | push h =>
    cases h with
    | queue _ _ hlive => exact shelves_put _ _ rfl rfl (by simp [Life.isEnd])
    | emptyEnd hlive => exact shelves_closeIf _ rfl rfl (was_live hlive) (by simp [Life.isEnd])

end

end Http2
