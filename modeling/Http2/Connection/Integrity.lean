import Http2.Connection.Lifetime
import Http2.Connection.Marks
import Http2.Connection.Outgoing

/-! What `send_data` accepts leaves as it was accepted: in order, nothing twice and nothing after the
end, however often it waits for a window. It rests on ids that are never given to a second stream, so
no more streams may have ended than are remembered. -/
namespace Http2

open Hpack Lib Lib.Prog Connection Life

namespace Integrity

/-- The peer of a client answers on streams that the client has begun. The stream of a header block in
progress is not reset before it is begun. -/
def terms : Terms where
  frame := Marks.answers.frame
  refusal c sid := c.headerContinuationStream = some sid → c.Used sid
  api c k :=
    match k with
    | .resetStream sid _ => c.headerContinuationStream = some sid → c.Used sid
    | _ => True

instance (c : Core) (sid : Nat) : Decidable (c.Used sid) := inferInstanceAs (Decidable (_ ∨ _))

instance (c : Core) (f : Frame) : Decidable (terms.frame c f) :=
  inferInstanceAs (Decidable (Marks.answers.frame c f))

instance (c : Core) (sid : Nat) : Decidable (terms.refusal c sid) :=
  inferInstanceAs (Decidable (c.headerContinuationStream = some sid → c.Used sid))

instance (c : Core) : (k : Call) → Decidable (terms.api c k)
  | .resetStream sid _ => inferInstanceAs (Decidable (c.headerContinuationStream = some sid → c.Used sid))
  | .initiate | .feed _ | .markPrefaceReceived | .markPrefaceSent | .sendSettings | .process _ | .pollEvent
  | .pollOutput | .startStream _ _ | .sendResponse _ _ _ | .sendTrailers _ _ | .sendData _ _ _ | .sendPing _
  | .sendGoaway _ _ | .sendWindowUpdate _ _ => inferInstanceAs (Decidable True)

/-! ## Streams that are remembered -/

/-- No stream was forgotten yet. -/
structure Remembers (c : Core) : Prop where
  size : c.closedStreams.maxSize = closedStreamsMaxSize
  room : c.closedStreams.inner.length ≤ closures c.trace

section

variable {c d : Core} {l : Label} {sid : Nat}

theorem new_remembers (role : Role) (limits : Limits) : Remembers (Core.new role limits) :=
  ⟨rfl, Nat.le_refl _⟩

theorem shelves_closures (h : Shelves c l d) : closures c.trace ≤ closures d.trace := by
  cases h with
  | keeps _ _ hends => exact hends
  | shelves _ _ _ _ _ hends => exact hends.le

theorem shelves_remembers (h : Remembers c) (hshelves : Shelves c l d) : Remembers d := by
  have hroom := h.room
  cases hshelves with
  | keeps hclosed _ hends =>
    refine ⟨hclosed ▸ h.size, ?_⟩
    rw [hclosed]
    omega
  | shelves sid hclosed _ _ _ hends =>
    have hlength := BoundedSet.length_insert_le c.closedStreams sid
    refine ⟨hclosed ▸ h.size, ?_⟩
    rw [hclosed]
    omega

/-- As long as there is room an id that was used stays so. -/
theorem used_kept (sid : Nat) (h : Remembers c) (hshelves : Shelves c l d)
    (hfew : closures d.trace ≤ closedStreamsMaxSize)
    (hused : c.Used sid) : d.Used sid := by
  have hroom := h.room
  have hsize := h.size
  cases hshelves with
  | keeps hclosed hlive => exact hused.imp (hlive sid) fun hin => hclosed ▸ hin
  | shelves sid' hclosed _ hothers _ hends =>
    have hcontains :
        ∀ x, d.closedStreams.contains x = true ↔ x = sid' ∨ c.closedStreams.contains x = true := by
      intro x
      rw [hclosed]
      exact BoundedSet.contains_insert (by omega)
    by_cases heq : sid = sid'
    · exact .inr ((hcontains sid).2 (.inl heq))
    · obtain hlive | hin := hused
      · exact .inl (by rw [hothers sid heq]; exact hlive)
      · exact .inr ((hcontains sid).2 (.inr hin))

end

/-! ## Servers -/

section

variable {c d : Core} {l : Label} {sid : Nat}

theorem server_step (h : Lifetime.Ordered c) (ht : Tidy c) (hl : terms.framed.Meets c l) (hstep : Step c l d)
    (hkept : ∀ sid, c.Used sid → d.Used sid) : Lifetime.Ordered d := by
  refine Lifetime.step_ordered h ht hstep fun sid hcont => ?_
  by_cases hframe : ∃ f, l = .frame f
  · obtain ⟨f, rfl⟩ := hframe
    obtain ⟨_, _, htrace, hbefore⟩ := block_goes_on hstep hl.1 hcont
    have hor : c.Used sid ∨ ¬ Known sid c.trace := by
      obtain ⟨hbefore, _⟩ | ⟨f, rfl, rfl, _, hadmits⟩ := hbefore
      · exact h.block sid hbefore
      · exact h.admits hadmits
    rw [Lifetime.goes_on_known htrace]
    exact hor.imp_left (hkept sid)
  · have hframe' : ∀ f, l ≠ .frame f := fun f heq => hframe ⟨f, heq⟩
    have hbefore : c.headerContinuationStream = some sid :=
      ((Change.step hstep).headerContinuationStream hframe').symm.trans hcont
    by_cases hused : c.Used sid
    · exact .inl (hkept sid hused)
    · refine .inr fun hknown => ?_
      obtain hknown | ⟨headers, endStream, rfl, _⟩ | ⟨code, rfl⟩ | rfl := call_known hstep hframe' hknown
      · exact (h.block sid hbefore).elim hused fun hnew => hnew hknown
      · cases h.role.symm.trans (start_checked (change_request (.step hstep))).1
      · exact hused (hl hbefore)
      · exact hused (hl hbefore)

end

/-! ## Clients -/

/-- The ids that a client gave away are in use, and no others. -/
structure Opened (c : Core) : Prop where
  role : c.role = .client
  alive : Alive c
  begun : ∀ sid, sid % 2 = 1 → sid < c.nextStreamId → c.Used sid
  used : ∀ sid, c.Used sid → sid < c.nextStreamId
  known : ∀ sid, Known sid c.trace → sid < c.nextStreamId
  last : c.lastRecvStreamId < c.nextStreamId

section

variable {c d : Core} {l : Label} {sid : Nat}

theorem new_opened (limits : Limits) : Opened (Core.new .client limits) where
  role := rfl
  alive := new_alive .client limits
  begun := by
    intro sid hodd hlt
    have hone : sid < 1 := hlt
    omega
  used := by
    rintro sid (hlive | hclosed)
    · cases hlive
    · cases hclosed
  known := by
    rintro sid ⟨i, hi, _⟩
    cases hi
  last := Nat.zero_lt_one

theorem Opened.unused (h : Opened c) (hnext : c.nextStreamId ≤ sid) : ¬ c.Used sid :=
  fun hused => absurd (h.used sid hused) (by omega)

/-- A frame begins no stream that is not in use. -/
theorem Opened.fresh (h : Opened c) (ht : Tidy c) (hl : terms.framed.Meets c l) (hbegins : Begins c l sid)
    (hnone : c.stream? sid = none) : ¬ Known sid c.trace := by
  cases hbegins with
  | request => exact fun hknown => absurd (h.known _ hknown) (Nat.lt_irrefl _)
  | whole f _ hadmits _ hclosed =>
    have hused := h.begun _ hadmits.1 (hl.2 h.role)
    exact absurd hused (Lifetime.not_used hnone hclosed)
  | last f hcont _ hclosed =>
    obtain ⟨hodd, hle⟩ := ht.block _ hcont
    have hlast := h.last
    exact absurd (h.begun _ hodd (by omega)) (Lifetime.not_used hnone hclosed)

theorem start_next {headers : List HeaderField} {endStream : Bool} (h : Start c headers endStream d) :
    d.nextStreamId = c.nextStreamId + 2 ∧ d.Used c.nextStreamId := by
  cases h with
  | request s => simp [Core.openStream, Core.Used]

/-- The next id moves with a request only. -/
theorem step_next (hstep : Step c l d) : d.nextStreamId = c.nextStreamId ∨
    ∃ headers endStream, l = .api (.startStream headers endStream) := by
  have hturns := (Change.step hstep).turns
  rw [← d.status_nextStreamId, ← c.status_nextStreamId]
  generalize d.status = status at hturns
  cases hturns with
  | request headers endStream => exact .inr ⟨headers, endStream, rfl⟩
  | same | activate | peerGoaway | goaway | settings | beginBlock | wholeBlock | endBlock => exact .inl rfl

theorem begins_next (h : Opened c) (ht : Tidy c) (hl : terms.framed.Meets c l) (hstep : Step c l d)
    (hbegins : Begins c l sid) : sid < d.nextStreamId := by
  have hnext := Marks.change_next (.step hstep)
  have hlast := h.last
  cases hbegins with
  | request headers endStream =>
    have hstart := (start_next (change_request (.step hstep))).1
    omega
  | whole f =>
    have hlt : f.streamId < c.nextStreamId := hl.2 h.role
    omega
  | last f hcont =>
    have hle := (ht.block _ hcont).2
    omega

theorem sends_next {code : Nat} (h : Opened c) (ht : Tidy c) (hl : terms.framed.Meets c l)
    (hsends : Sends c l (.rstStream sid code)) : sid < c.nextStreamId := by
  obtain hidle | ⟨f, rfl, rfl⟩ | hcont := hsends
  · exact Lifetime.idle_lt h.used h.last hidle
  · exact hl.2 h.role
  · exact (ht.block _ hcont).2.trans_lt h.last

theorem client_step (h : Opened c) (ht : Tidy c) (hl : terms.framed.Meets c l) (hstep : Step c l d)
    (hkept : ∀ sid, c.Used sid → d.Used sid) : Opened d := by
  have hchange := Change.step hstep
  have hnext := Marks.change_next hchange
  refine ⟨hchange.role.trans h.role, ?_, fun sid hodd hlt => ?_, fun sid hused => ?_,
    fun sid hknown => ?_, ?_⟩
  · refine step_alive ht h.alive (fun sid => h.fresh ht hl) (fun _ _ _ => ?_) hstep
    cases hnone : c.stream? c.nextStreamId with
    | none => rfl
    | some s => exact absurd (.inl (by simp [hnone])) (h.unused (Nat.le_refl _))
  · by_cases hbefore : sid < c.nextStreamId
    · exact hkept sid (h.begun sid hodd hbefore)
    · obtain hsame | ⟨headers, endStream, rfl⟩ := step_next hstep
      · omega
      · obtain ⟨hmoved, hused⟩ := start_next (change_request hchange)
        have hown := ht.next h.role
        obtain rfl : sid = c.nextStreamId := by omega
        exact hused
  · obtain hbefore | hbegins := hchange.touches.used hused
    · exact (h.used sid hbefore).trans_le hnext
    · exact begins_next h ht hl hstep hbegins
  · obtain hbefore | hbegins | ⟨code, hsends⟩ := frame_known hstep hknown
    · exact (h.known sid hbefore).trans_le hnext
    · exact begins_next h ht hl hstep hbegins
    · exact (sends_next h ht hl hsends).trans_le hnext
  · have hlast := h.last
    obtain hsame | ⟨f, rfl, _, hmax⟩ := hchange.lastRecvStreamId
    · omega
    · have hlt : f.streamId < c.nextStreamId := hl.2 h.role
      omega

end

/-! ## Runs -/

theorem steps_remembers {T : Terms} {c d : Core} (h : Remembers c) (hsteps : Steps T c d) : Remembers d := by
  induction hsteps with
  | refl => exact h
  | tail _ hstep ih =>
    obtain ⟨_, _, hstep⟩ := hstep
    exact shelves_remembers ih (step_shelves hstep)

/-- As long as no stream was forgotten, every stream stands where its history has led. -/
theorem steps_held {role : Role} {limits : Limits} {c : Core}
    (hsteps : Steps terms.framed (Core.new role limits) c) (hfew : closures c.trace ≤ closedStreamsMaxSize) :
    Lifetime.Ordered c ∨ Opened c := by
  induction hsteps with
  | refl =>
    cases role with
    | server => exact .inl (Lifetime.new_ordered limits)
    | client => exact .inr (new_opened limits)
  | @tail d e hbefore hstep ih =>
    obtain ⟨l, hl, hstep⟩ := hstep
    have ht := steps_tidy (Tidy.new role limits) hbefore
    have hremembers := steps_remembers (new_remembers role limits) hbefore
    have hshelves := step_shelves hstep
    have hkept : ∀ sid, d.Used sid → e.Used sid := fun sid => used_kept sid hremembers hshelves hfew
    obtain hserver | hclient := ih ((shelves_closures hshelves).trans hfew)
    · exact .inl (server_step hserver ht hl hstep hkept)
    · exact .inr (client_step hclient ht hl hstep hkept)

theorem steps_alive {role : Role} {limits : Limits} {c : Core}
    (hsteps : Steps terms.framed (Core.new role limits) c) (hfew : closures c.trace ≤ closedStreamsMaxSize) :
    Alive c := by
  obtain hserver | hclient := steps_held hsteps hfew
  · exact hserver.alive
  · exact hclient.alive

/-- What has left on a stream, beside what the calls of `send_data` handed over. -/
structure Intact (role : Role) (records : List Record) (c : Core) (sid : Nat) : Prop where
  /-- The end comes once and last, after all of it; nothing follows it, or a reset. -/
  lived : Lived role (history sid c.trace)
  sent : Life.sent (history sid c.trace) <+: Outgoing.accepted sid records
  live : ∀ s, c.stream? sid = some s →
    Outgoing.accepted sid records = Life.sent (history sid c.trace) ++ s.sendBuffer

/-- **Integrity.** As long as no call failed and no stream was forgotten, what has left on a stream is
a prefix of what was accepted for it, the rest of a live stream is its buffer, and header blocks leave
in one piece. -/
theorem integrity {role : Role} {limits : Limits} {records : List Record} {c : Connection}
    (h : RunOf terms (Connection.new role limits) records c) (hsound : Sound records)
    (hfew : closures c.trace ≤ closedStreamsMaxSize) :
    Outgoing.Contiguous c.trace ∧ ∀ sid, Intact role records c.toCore sid := by
  have hsteps := (run_taken h hsound).steps
  have halive := steps_alive hsteps hfew
  have hrole : c.role = role := evolves_role (steps_evolves hsteps)
  refine ⟨Outgoing.steps_contiguous (Tidy.new role limits) (rfl : Outgoing.Contiguous []) hsteps,
    fun sid => ?_⟩
  have hqueued := Outgoing.run_queued h sid
  obtain ⟨p, hp, hfits⟩ := halive sid
  rw [hrole] at hp
  refine ⟨Life.lived hp, hqueued ▸ sent_prefix hp, fun s hs => ?_⟩
  rw [hs] at hfits
  obtain ⟨r, l, rfl, _⟩ := fits_live hfits
  rw [← hqueued]
  exact (balanced hp).1

/-- A client whose windows take four octets asks a server, which answers with five. -/
def narrowCalls : List Call :=
  [.feed (clientBytes [.settings ⟨false, [.initialWindowSize ⟨4, by decide⟩]⟩, .headers
    ⟨1, true, true, none, getBlock, none⟩]),
    .process .listed, .sendResponse 1 [⟨ascii ":status", ascii "200", false⟩] false,
    .sendData 1 (ascii "he") false, .sendData 1 (ascii "llo") true]

theorem integrity_narrow :
    ∃ records c, RunOf terms (Connection.new .server .default) records c ∧ Sound records ∧
      closures c.trace ≤ closedStreamsMaxSize ∧ (c.stream? 1).map (·.sendBuffer) = some (ascii "o") ∧
        Outgoing.Contiguous c.trace ∧ ∀ sid, Intact .server records c.toCore sid := by
  have hheeds : HeedsAll terms narrowCalls (Connection.new .server .default) := by decide +kernel
  have hrun := RunOf.execAll .start hheeds
  have hsound : Sound (execAll narrowCalls [] (Connection.new .server .default)).1 := by
    unfold Sound
    decide +kernel
  have hfew : closures (execAll narrowCalls [] (Connection.new .server .default)).2.trace ≤
      closedStreamsMaxSize := by decide +kernel
  exact ⟨_, _, hrun, hsound, hfew, by decide +kernel, integrity hrun hsound hfew⟩

/-- A reset before the end of the block does not keep the response from leaving after it. -/
example : (execAll [.feed (clientBytes [.headers ⟨1, true, false, none, getBlock, none⟩]), .process .listed,
      .resetStream 1 .cancel, .feed (Frame.wire (.continuation ⟨1, true, []⟩)), .process .listed,
      .sendResponse 1 [⟨ascii ":status", ascii "200", false⟩] true] []
      (Connection.new .server .default)).2.trace.filterMap (fun i =>
        if isAbort i then some "reset" else if isBlock i then some "headers" else none) =
    ["headers", "reset"] := by
  decide +kernel

end Integrity

end Http2
