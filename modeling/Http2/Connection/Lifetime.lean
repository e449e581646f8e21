import Http2.Connection.Closures
import Http2.Connection.Lifecycle
import Http2.Connection.Taken

/-! The streams of a server, over whole runs: each lives once, however many have been closed and
forgotten since. Ids only grow; an id that is in the map, among the closed or in a block that was
begun for it comes back, and no other. -/
namespace Http2

open Hpack Lib Lib.Prog Connection Life

namespace Lifetime

/-- The calls that take what has come out. -/
def isPoll : Call → Bool
  | .pollEvent | .pollOutput => true
  | _ => false

/-- Between the first frame of a header block and its last nothing is refused and nothing called that
could change a stream. -/
def whole : Terms where
  frame _ _ := True
  refusal c _ := c.headerContinuationStream = none
  api c k := k.isInput = true ∨ isPoll k = true ∨ c.headerContinuationStream = none

instance (c : Core) (f : Frame) : Decidable (whole.frame c f) := inferInstanceAs (Decidable True)

instance (c : Core) (sid : Nat) : Decidable (whole.refusal c sid) :=
  inferInstanceAs (Decidable (c.headerContinuationStream = none))

instance (c : Core) (k : Call) : Decidable (whole.api c k) :=
  inferInstanceAs (Decidable (_ ∨ _ ∨ c.headerContinuationStream = none))

/-! ## New streams -/

/-- What makes a stream that a frame begins a new one. -/
structure Ordered (c : Core) : Prop where
  role : c.role = .server
  alive : Alive c
  apart : ∀ sid, (c.stream? sid).isSome = true → c.closedStreams.contains sid = false
  used : ∀ sid, c.Used sid → sid ≤ c.lastRecvStreamId
  known : ∀ sid, Known sid c.trace → sid ≤ c.lastRecvStreamId
  block : ∀ sid, c.headerContinuationStream = some sid → c.Used sid ∨ ¬ Known sid c.trace

section

variable {c d : Core} {l : Label} {sid : Nat}

theorem new_ordered (limits : Limits) : Ordered (Core.new .server limits) where
  role := rfl
  alive := new_alive .server limits
  apart := by
    intro sid hlive
    cases hlive
  used := by
    rintro sid (hlive | hclosed)
    · cases hlive
    · cases hclosed
  known := by
    rintro sid ⟨i, hi, _⟩
    cases hi
  block := by
    intro sid hcont
    cases hcont

theorem not_used (hnone : c.stream? sid = none) (hclosed : c.closedStreams.contains sid = false) :
    ¬ c.Used sid := by
  rintro (hlive | hin)
  · rw [hnone] at hlive
    cases hlive
  · cases hclosed.symm.trans hin

theorem Ordered.fresh (h : Ordered c) (hbegins : Begins c l sid) (hnone : c.stream? sid = none) :
    ¬ Known sid c.trace := by
  intro hknown
  have hle := h.known sid hknown
  cases hbegins with
  | request _ _ hrole => cases h.role.symm.trans hrole
  | whole f _ hadmits _ hclosed =>
    obtain hin | hlive | ⟨hlt, _⟩ := hadmits.2
    · cases hclosed.symm.trans hin
    · rw [hnone] at hlive
      cases hlive
    · omega
  | last f hcont _ hclosed =>
    obtain hused | hnew := h.block _ hcont
    · exact not_used hnone hclosed hused
    · exact hnew hknown

/-- HEADERS moves the last id. -/
theorem headers_recv {f : HeadersFrame} (hstep : Step c (.frame (.headers f)) d) :
    d.lastRecvStreamId = max c.lastRecvStreamId f.streamId := by
  cases hstep with
  | calm hcalm =>
    cases hcalm with
    | receive _ hinert => exact hinert.elim
    | credit _ _ hl => obtain hl | hl := hl <;> cases hl
    | beginBlock => rfl
    | wholeBlock _ _ _ _ _ _ _ houtcome =>
      obtain ⟨_, _, hstatus⟩ := outcome_status houtcome
      exact congrArg Status.lastRecvStreamId hstatus
  | wake hwake => cases hwake

theorem step_recv (hstep : Step c l d) : c.lastRecvStreamId ≤ d.lastRecvStreamId := by
  obtain hsame | ⟨_, _, _, hmax⟩ := (Change.step hstep).lastRecvStreamId <;> omega

/-- A frame begins no stream above the last id. -/
theorem begins_recv (ht : Tidy c) (hrole : c.role = .server) (hstep : Step c l d) (hbegins : Begins c l sid) :
    sid ≤ d.lastRecvStreamId := by
  cases hbegins with
  | request _ _ hclient => cases hrole.symm.trans hclient
  | whole f =>
    rw [headers_recv hstep]
    exact Nat.le_max_right ..
  | last f hcont => exact (ht.block _ hcont).2.trans (step_recv hstep)

/-- What is not idle was used or received. -/
theorem idle_lt {n : Nat} (hused : ∀ sid, c.Used sid → sid < n) (hlast : c.lastRecvStreamId < n)
    (hidle : c.isIdleStream sid = false) : sid < n := by
  unfold Core.isIdleStream at hidle
  split at hidle
  · rename_i hlive
    exact hused sid (.inl hlive)
  · split at hidle
    · rename_i hclosed
      exact hused sid (.inr hclosed)
    · split at hidle
      · cases hidle
      · have hle : sid ≤ c.lastRecvStreamId := by simpa using hidle
        omega

/-- RST_STREAM leaves for ids that were received, none of them above the last. -/
theorem sends_recv {code : Nat} (ht : Tidy c) (hused : ∀ sid, c.Used sid → sid ≤ c.lastRecvStreamId)
    (hstep : Step c l d) (hsends : Sends c l (.rstStream sid code)) : sid ≤ d.lastRecvStreamId := by
  obtain hidle | ⟨f, rfl, rfl⟩ | hcont := hsends
  · have hlt := idle_lt (fun sid hin => Nat.lt_succ_of_le (hused sid hin)) (Nat.lt_succ_self _) hidle
    exact (Nat.le_of_lt_succ hlt).trans (step_recv hstep)
  · rw [headers_recv hstep]
    exact Nat.le_max_right ..
  · exact (ht.block _ hcont).2.trans (step_recv hstep)

theorem known_recv (h : Ordered c) (ht : Tidy c) (hstep : Step c l d) (hknown : Known sid d.trace) :
    sid ≤ d.lastRecvStreamId := by
  obtain hknown | hbegins | ⟨code, hsends⟩ := frame_known hstep hknown
  · exact (h.known sid hknown).trans (step_recv hstep)
  · exact begins_recv ht h.role hstep hbegins
  · exact sends_recv ht h.used hstep hsends

/-- What follows from a frame leaves the streams as they are. -/
theorem inner_same (hstep : Step c .inner d) : d.streams = c.streams ∧ d.closedStreams = c.closedStreams ∧
    d.headerEndStream = c.headerEndStream := by
  cases hstep with
  | calm hcalm => cases hcalm <;> exact ⟨rfl, rfl, rfl⟩

/-- A call that takes input in, or output out, is no transition. -/
theorem no_input {k : Call} (hstep : Step c (.api k) d) : k.isInput = false ∧ isPoll k = false := by
  cases hstep with
  | calm hcalm =>
    cases hcalm with
    | announce _ hk => obtain rfl | rfl := hk <;> exact ⟨rfl, rfl⟩
    | credit _ _ hl =>
      obtain hl | hl := hl
      · cases hl
      · cases hl
        exact ⟨rfl, rfl⟩
    | _ => exact ⟨rfl, rfl⟩
  | start | push => exact ⟨rfl, rfl⟩

/-- Inside a block there are its frames and what follows from them. -/
theorem proceeds_block (hl : whole.framed.Meets c l) (hflush : l = .flush → c.headerContinuationStream = none)
    (hstep : Step c l d) (hcont : c.headerContinuationStream = some sid) :
    l = .inner ∨ ∃ f, l = .frame (.continuation f) := by
  cases l with
  | frame f =>
    obtain ⟨cf, rfl⟩ := takes_continuation hl.1 hcont
    exact .inr ⟨cf, rfl⟩
  | refusal sid' => cases hcont.symm.trans hl
  | api k =>
    obtain ⟨hinput, hpoll⟩ := no_input hstep
    obtain hin | hin | hnone := hl
    · cases hinput.symm.trans hin
    · cases hpoll.symm.trans hin
    · cases hcont.symm.trans hnone
  | inner => exact .inl rfl
  | flush => cases hcont.symm.trans (hflush rfl)

/-- A transition keeps all of it but what it says of a block in progress. -/
theorem step_ordered (h : Ordered c) (ht : Tidy c) (hstep : Step c l d)
    (hblock : ∀ sid, d.headerContinuationStream = some sid → d.Used sid ∨ ¬ Known sid d.trace) :
    Ordered d := by
  have hchange := Change.step hstep
  refine ⟨hchange.role.trans h.role, ?_, fun sid hlive => ?_, fun sid hused => ?_, fun sid =>
    known_recv h ht hstep,
    hblock⟩
  · refine step_alive ht h.alive (fun sid => h.fresh) ?_ hstep
    rintro headers endStream rfl
    cases h.role.symm.trans (start_checked (change_request hchange)).1
  · by_contra hclosed
    have hin : d.closedStreams.contains sid = true := by simpa using hclosed
    have hwas : c.closedStreams.contains sid = true := by
      cases step_shelves hstep with
      | keeps hsame => exact hsame ▸ hin
      | shelves sid' hsame hgone =>
        rw [hsame] at hin
        obtain rfl | hin := BoundedSet.contains_of_contains_insert hin
        · rw [hgone] at hlive
          cases hlive
        · exact hin
    obtain hbefore | hbegins := hchange.touches.live hlive
    · cases (h.apart sid hbefore).symm.trans hwas
    · cases hbegins with
      | request _ _ hclient => cases h.role.symm.trans hclient
      | whole _ _ _ _ hfree | last _ _ _ hfree => cases hfree.symm.trans hwas
  · obtain hbefore | hbegins := hchange.touches.used hused
    · exact (h.used sid hbefore).trans (step_recv hstep)
    · exact begins_recv ht h.role hstep hbegins

/-- A frame that leaves a block in progress makes no stream known. -/
theorem goes_on_known {f : Frame} (htrace : d.trace = .received f :: c.trace) :
    Known sid d.trace ↔ Known sid c.trace := by
  rw [htrace, known_cons]
  simp [marks]

/-- A block that begins is for a stream in use, or for one that nothing is known of. -/
theorem Ordered.admits (h : Ordered c) (hadmits : c.Admits sid) : c.Used sid ∨ ¬ Known sid c.trace := by
  obtain hin | hlive | ⟨hlt, _⟩ := hadmits.2
  · exact .inl (.inr hin)
  · exact .inl (.inl hlive)
  · refine .inr fun hknown => ?_
    have hle := h.known sid hknown
    omega

theorem proceeds_ordered (h : Ordered c) (ht : Tidy c) (hproceeds : Proceeds whole c d) : Ordered d := by
  obtain ⟨l, hl, hflush, hstep⟩ := hproceeds
  refine step_ordered h ht hstep fun sid hcont => ?_
  by_cases hframe : ∃ f, l = .frame f
  · obtain ⟨f, rfl⟩ := hframe
    obtain ⟨hstreams, hclosed, htrace, hbefore⟩ := block_goes_on hstep hl.1 hcont
    have hor : c.Used sid ∨ ¬ Known sid c.trace := by
      obtain ⟨hbefore, _⟩ | ⟨f, rfl, rfl, _, hadmits⟩ := hbefore
      · exact h.block sid hbefore
      · exact h.admits hadmits
    rw [goes_on_known htrace]
    simpa [Core.Used, hstreams, hclosed] using hor
  · have hframe' : ∀ f, l ≠ .frame f := fun f heq => hframe ⟨f, heq⟩
    have hbefore : c.headerContinuationStream = some sid :=
      ((Change.step hstep).headerContinuationStream hframe').symm.trans hcont
    obtain rfl | ⟨f, rfl⟩ := proceeds_block hl hflush hstep hbefore
    · obtain ⟨hstreams, hclosed, _⟩ := inner_same hstep
      have hsame : Known sid d.trace → Known sid c.trace := by
        intro hknown
        obtain hknown | ⟨_, _, heq, _⟩ | ⟨_, heq⟩ | heq := call_known hstep hframe' hknown
        · exact hknown
        all_goals cases heq
      obtain hused | hnew := h.block sid hbefore
      · exact .inl (by simpa [Core.Used, hstreams, hclosed] using hused)
      · exact .inr fun hknown => hnew (hsame hknown)
    · exact absurd rfl (hframe' _)

end

/-! ## The end of the other side -/

/-- A frame that ends the peer's side of the stream. -/
def endsOn (sid : Nat) : Frame → Bool
  | .headers f => f.streamId == sid && f.endStream
  | .data f => f.streamId == sid && f.endStream
  | _ => false

/-- END_STREAM was received on the stream. -/
def EndReceived (sid : Nat) (items : List Item) : Prop := ∃ f, .received f ∈ items ∧ endsOn sid f = true

/-- What the application hears of an end was received before. -/
structure Heard (c : Core) : Prop where
  block : ∀ sid, c.headerContinuationStream = some sid → c.headerEndStream = true → EndReceived sid c.trace
  ends : Always (fun i earlier => hearsEnd i = true → ∀ sid, i.streamId? = some sid → EndReceived sid earlier)
    c.trace

section

variable {c d : Core} {l : Label} {sid : Nat} {items later earlier : List Item}

theorem EndReceived.mono (h : EndReceived sid earlier) (hsub : earlier ⊆ items) : EndReceived sid items := by
  obtain ⟨f, hf, hends⟩ := h
  exact ⟨f, hsub hf, hends⟩

theorem new_heard (limits : Limits) : Heard (Core.new .server limits) where
  block := by
    intro sid hcont
    cases hcont
  ends := trivial

/-- The frame that completes a block with END_STREAM, or the one that began it, has ended the stream. -/
theorem completes_received {raw : List HeaderField} (h : Heard c) (hblock : Completes c l sid raw true) :
    EndReceived sid (l.cause ++ c.trace) := by
  generalize hend : true = endStream at hblock
  cases hblock with
  | whole f => exact ⟨.headers f, List.mem_cons_self .., by simp [endsOn, ← hend]⟩
  | last f hcont => exact (h.block _ hcont hend.symm).mono (List.subset_append_right ..)

theorem proceeds_heard (ht : Tidy c) (h : Heard c) (hproceeds : Proceeds whole c d) : Heard d := by
  obtain ⟨l, hl, hflush, hstep⟩ := hproceeds
  have hchange := Change.step hstep
  obtain ⟨new, heq, hnew⟩ := step_extends hstep
  have hgrows : c.trace ⊆ d.trace := by
    rw [heq, ← List.append_assoc]
    exact List.subset_append_right ..
  refine ⟨fun sid hcont hend => ?_, ?_⟩
  · by_cases hframe : ∃ f, l = .frame f
    · obtain ⟨f, rfl⟩ := hframe
      obtain ⟨_, _, htrace, ⟨hbefore, hsame⟩ | ⟨hf, rfl, rfl, hsame, _⟩⟩ := block_goes_on hstep hl.1 hcont
      · exact (h.block sid hbefore (hsame ▸ hend)).mono hgrows
      · rw [htrace]
        exact ⟨.headers hf, List.mem_cons_self .., by simp [endsOn, ← hsame, hend]⟩
    · have hframe' : ∀ f, l ≠ .frame f := fun f hf => hframe ⟨f, hf⟩
      have hbefore : c.headerContinuationStream = some sid :=
        (hchange.headerContinuationStream hframe').symm.trans hcont
      obtain rfl | ⟨f, rfl⟩ := proceeds_block hl hflush hstep hbefore
      · obtain ⟨_, _, hsame⟩ := inner_same hstep
        exact (h.block sid hbefore (hsame ▸ hend)).mono hgrows
      · exact absurd rfl (hframe' _)
  · rw [heq]
    have hcause : Always (fun i earlier => hearsEnd i = true → ∀ sid, i.streamId? = some sid →
        EndReceived sid earlier) (l.cause ++ c.trace) := by
      refine h.ends.append fun i hi _ hhears => ?_
      cases l <;> simp [Label.cause] at hi <;> simp [hi, hearsEnd] at hhears
    refine hcause.append fun i hi between hhears sid hsid => ?_
    have hreceived : EndReceived sid (l.cause ++ c.trace) := by
      obtain ⟨f, rfl, rfl, hend⟩ | ⟨raw, hblock⟩ := step_hears ht hstep heq hi hsid hhears
      · exact ⟨.data f, List.mem_cons_self .., by simp [endsOn, hend]⟩
      · exact completes_received h hblock
    exact hreceived.mono (List.subset_append_right ..)

end

/-! ## Runs -/

/-- The stream with this id, over the run that led to this state. -/
structure LivesOnce (c : Core) (sid : Nat) : Prop where
  lived : Lived .server (history sid c.trace)
  /-- A stream that is closed was ended by the peer, too. -/
  received : ∀ later earlier, c.trace = later ++ .event (.streamClosed sid) :: earlier →
    EndReceived sid earlier
  live : ∀ s, c.stream? sid = some s →
    s.state = .open ∨ s.state = .halfClosedLocal ∨ s.state = .halfClosedRemote
  disjoint : (c.stream? sid).isSome = true → c.closedStreams.contains sid = false

theorem lives_once {c : Core} (ht : Tidy c) (hordered : Ordered c) (hheard : Heard c) (sid : Nat) :
    LivesOnce c sid where
  lived := by
    obtain ⟨p, hp, _⟩ := hordered.alive sid
    rw [hordered.role] at hp
    exact Life.lived hp
  received := by
    intro later earlier htrace
    obtain ⟨p, hp, _⟩ := hordered.alive sid
    have hsplit : history sid c.trace =
        history sid later ++ .event (.streamClosed sid) :: history sid earlier := by
      rw [htrace, history_append, history_cons]
      exact congrArg _ (if_pos rfl)
    rw [hsplit] at hp
    obtain ⟨⟨j, hj, hhears⟩, _⟩ := closed_ends hp
    obtain ⟨hin, hsid⟩ := List.mem_filter.1 hj
    obtain ⟨between, before, rfl⟩ := List.append_of_mem hin
    have hends := hheard.ends
    rw [htrace, ← List.cons_append, ← List.append_assoc] at hends
    have hreceived := Always.at hends hhears sid (by simpa using hsid)
    exact hreceived.mono (List.subset_append_of_subset_right _ (List.subset_cons_self ..))
  live := fun s hs => (ht.streams sid s hs).2.state
  disjoint := hordered.apart sid

/-- **Lifecycle.** As long as no call failed, and nothing came between the frames of a header block,
every stream of a server lives once: one record, one header section, one last event with nothing after
it, and it is closed only when both sides have ended it. -/
theorem lifetime {limits : Limits} {history : List Record} {c : Connection}
    (h : RunOf whole (Connection.new .server limits) history c) (hsound : Sound history) (sid : Nat) :
    LivesOnce c.toCore sid := by
  have hcourse := run_taken h hsound
  have hboth : Ordered c.toCore ∧ Heard c.toCore := by
    refine proceeds_invariant (P := fun c => Ordered c ∧ Heard c) (T := whole) (c := Core.new .server limits)
      ?_ ⟨new_ordered limits, new_heard limits⟩ ?_ (course_proceeds ?_ hcourse)
    · exact run_tidy (.start : RunOf whole (Connection.new .server limits) [] _)
    · rintro c d ht ⟨hordered, hheard⟩ hproceeds
      exact ⟨proceeds_ordered hordered ht hproceeds, proceeds_heard ht hheard hproceeds⟩
    · rintro c sid data endStream (hin | hin | hnone)
      · cases hin
      · cases hin
      · exact hnone
  exact lives_once (run_tidy h) hboth.1 hboth.2 sid

/-- A request in two frames, and its response with END_STREAM. -/
def exchangeCalls : List Call :=
  [.feed (clientBytes [.headers ⟨1, true, false, none, getBlock.take 2, none⟩, .continuation
    ⟨1, true, getBlock.drop 2⟩]),
    .process .listed, .sendResponse 1 [⟨ascii ":status", ascii "200", false⟩] true]

theorem lifetime_exchange :
    ∃ history c, RunOf whole (Connection.new .server .default) history c ∧ Sound history ∧
      Item.event (.streamClosed 1) ∈ c.trace ∧ LivesOnce c.toCore 1 := by
  have hheeds : HeedsAll whole exchangeCalls (Connection.new .server .default) := by decide +kernel
  have hrun := RunOf.execAll .start hheeds
  have hsound : Sound (execAll exchangeCalls [] (Connection.new .server .default)).1 := by
    unfold Sound
    decide +kernel
  exact ⟨_, _, hrun, hsound, by decide +kernel, lifetime hrun hsound 1⟩

end Lifetime

end Http2
