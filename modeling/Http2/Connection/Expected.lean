import Http2.Connection.Admission
import Http2.Connection.Fragments

/-! Which frame may come first, and which within a header block, is asked of frames that are handled.
It is not asked of those that the decoder refuses, and a GOAWAY that was sent ends the wait for the
first. -/
namespace Http2

open Hpack Lib Lib.Prog Connection

namespace Expected

/-! ## What is expected -/

/-- The stream whose header block is open. -/
def block : List Item → Option Nat
  | .received (.headers f) :: earlier =>
    (block earlier).or (if f.endHeaders then none else some f.streamId)
  | .received (.continuation f) :: earlier =>
    if f.endHeaders = true ∧ block earlier = some f.streamId then none else block earlier
  | _ :: earlier => block earlier
  | [] => none

/-- The octets that were fed. -/
def fed : List Record → Bytes
  | ⟨.feed data, _⟩ :: earlier => fed earlier ++ data
  | _ :: earlier => fed earlier
  | [] => []

/-- The preface came, or the application took it in itself. -/
def Heralded (history : List Record) : Prop :=
  connectionPreface <+: fed history ∨ ∃ r ∈ history, r.call = .markPrefaceReceived

def isReceived : Item → Bool
  | .received _ => true
  | _ => false

/-- No frame has come. -/
def Fresh (trace : List Item) : Prop := trace.any isReceived = false

/-- The first frame is the peer's SETTINGS, where `send_goaway` has ended the wait for them. -/
def Greets (c : Core) (f : Frame) : Prop :=
  c.state ≠ .waitingPreface → Fresh c.trace → isInitialSettings f = true

/-- HEADERS that begin a block are not refused. -/
def Begun (c : Core) : Frame → Prop
  | .headers f => f.endHeaders = false → block c.trace = none → c.Takes (.headers f) ∧ c.Admits f.streamId
  | _ => True

/-- A frame that the decoder refuses comes neither first nor within a header block, unless its stream
is idle. -/
def terms : Terms where
  frame c f := Greets c f ∧ Begun c f
  refusal c sid := c.isIdleStream sid = false → ¬ Fresh c.trace ∧ block c.trace = none
  api _ _ := True

instance (trace : List Item) : Decidable (Fresh trace) := inferInstanceAs (Decidable (_ = false))

instance (c : Core) (sid : Nat) : Decidable (c.Admits sid) := inferInstanceAs (Decidable (_ ∧ _))

instance (c : Core) (f : Frame) : Decidable (Greets c f) :=
  inferInstanceAs (Decidable (c.state ≠ .waitingPreface → Fresh c.trace → _))

instance (c : Core) : (f : Frame) → Decidable (Begun c f)
  | .headers f => inferInstanceAs (Decidable (f.endHeaders = false → block c.trace = none → _))
  | .data _ | .priority _ _ | .rstStream _ _ | .settings _ | .pushPromise _ | .ping _ _ | .goaway _
  | .windowUpdate _ _ | .continuation _ | .priorityUpdate _ _ | .unknown _ _ =>
    inferInstanceAs (Decidable True)

instance (c : Core) (f : Frame) : Decidable (terms.frame c f) := inferInstanceAs (Decidable (_ ∧ _))

instance (c : Core) (sid : Nat) : Decidable (terms.refusal c sid) :=
  inferInstanceAs (Decidable (c.isIdleStream sid = false → _))

instance (c : Core) (k : Call) : Decidable (terms.api c k) := inferInstanceAs (Decidable True)

/-! ## Header blocks -/

/-- The connection knows of the open block. -/
def Tracks (c : Core) : Prop := ∀ sid, block c.trace = some sid → c.headerContinuationStream = some sid

/-- All but HEADERS that begin a block. -/
def later : Terms where
  frame c f := ∀ g, f = .headers g → g.endHeaders = false → block c.trace ≠ none
  refusal _ _ := True
  api _ _ := True

section

variable {it : IterOrder} {c d : Core} {new items : List Item}

theorem block_append (h : ∀ i ∈ new, ∀ f, i ≠ .received f) : block (new ++ items) = block items := by
  induction new with
  | nil => rfl
  | cons i new ih =>
    obtain ⟨hi, hnew⟩ := List.forall_mem_cons.1 h
    rw [List.cons_append, ← ih hnew]
    cases i with
    | received f => exact absurd rfl (hi f)
    | _ => rfl

theorem block_change {l : Label} (h : Change c l d) : block d.trace = block (l.cause ++ c.trace) := by
  obtain ⟨new, heq, hnew⟩ := h.extends
  rw [heq]
  apply block_append
  rintro i hi f rfl
  exact hnew _ hi

/-- A frame that does not begin a block leaves the open one open, or ends it. -/
theorem block_received {f : Frame} {sid : Nat} (hf : later.frame c f)
    (h : block (.received f :: c.trace) = some sid) : block c.trace = some sid := by
  cases f with
  | headers g =>
    cases hopen : block c.trace with
    | some sid' =>
      rw [block, hopen] at h
      exact h
    | none =>
      have hend : g.endHeaders = true := by
        by_contra hmore
        exact hf g rfl (by simpa using hmore) hopen
      rw [block, hopen, hend] at h
      cases h
  | continuation g =>
    rw [block] at h
    split at h
    · cases h
    · exact h
  | _ => exact h

/-- The block ends when the frame does that ends it. -/
theorem block_ended {g : ContinuationFrame} (hlast : g.endHeaders = true)
    (hopen : block c.trace = some g.streamId) : block (.received (.continuation g) :: c.trace) = none := by
  rw [block, if_pos ⟨hlast, hopen⟩]

theorem settles_tracks (hc : Tracks c) (h : Settles later c d) : Tracks d := by
  intro sid hopen
  cases h with
  | @change l _ hl hchange =>
    rw [block_change hchange] at hopen
    by_cases hframe : ∃ f, l = .frame f
    · obtain ⟨f, rfl⟩ := hframe
      obtain ⟨⟨_, htakes⟩, hlater⟩ := hl
      have hbefore := block_received hlater hopen
      have hcont := hc sid hbefore
      rw [hcont] at htakes
      have hturns := hchange.turns
      rw [← d.status_headerContinuationStream]
      generalize d.status = status at hturns
      cases hturns with
      | beginBlock f hnone | wholeBlock f _ hnone =>
        rw [hnone] at hcont
        cases hcont
      | endBlock f _ hsome hlast =>
        rw [hsome] at hcont
        obtain rfl := Option.some.inj hcont
        rw [Label.cause, List.cons_append, List.nil_append, block_ended hlast hbefore] at hopen
        cases hopen
      | same | peerGoaway | settings => exact hcont
    · rw [hchange.headerContinuationStream fun f hf => hframe ⟨f, hf⟩]
      cases l with
      | frame f => exact absurd ⟨f, rfl⟩ hframe
      | _ => exact hc sid hopen
  | refuse f hl => exact hc sid (block_received hl hopen)
  | overrun f => exact hc sid (block_received (f := .continuation f) (fun g hg => by cases hg) hopen)

theorem settlesAll_tracks (hc : Tracks c) (h : Relation.ReflTransGen (Settles later) c d) : Tracks d := by
  induction h with
  | refl => exact hc
  | tail _ hstep ih => exact settles_tracks ih hstep

end

section

variable {it : IterOrder} {c d : Connection}

/-- HEADERS that are not refused open their block, even if the first fragment is too long. -/
theorem handleHeaders_begins {f : HeadersFrame} (hadmits : c.toCore.Admits f.streamId)
    (hmore : f.endHeaders = false) : Ensures (handleHeaders f) c fun _ d =>
      d.trace = c.trace ∧ d.headerContinuationStream = some f.streamId := by
  have htrace : (c.notedHeaders f.streamId).trace = c.trace := by rw [notedHeaders_toCore]
  have hbegins : Ensures (collectHeaders f (c.closedStreams.contains f.streamId))
      (c.notedHeaders f.streamId) fun _ d => d.trace = c.trace ∧
        d.headerContinuationStream = some f.streamId := by
    simp only [collectHeaders, hmore, Bool.false_eq_true, if_false, checkHeaderBlockFragmentSize,
      ensures_bind, ensures_update, ensures_get, ensures_require, setCore_toCore]
    exact ⟨fun _ => ⟨htrace, trivial⟩, fun _ => ⟨htrace, trivial⟩⟩
  rw [Ensures, handleHeaders_admits hadmits]
  exact hbegins

theorem handleFrame_tracks {f : Frame} (ht : Tidy c.toCore) (hc : Tracks c.toCore)
    (hl : terms.frame c.toCore f) : Ensures (handleFrame it f) c fun _ d => Tracks d.toCore := by
  by_cases hlater : later.frame c.toCore f
  · apply ensures_mono (handleFrame_settles ht hlater)
    intro r d h
    exact settlesAll_tracks hc h
  · obtain ⟨g, rfl, hmore, hnone⟩ : ∃ g, f = .headers g ∧ g.endHeaders = false ∧
        block c.trace = none := by simpa [later] using hlater
    obtain ⟨⟨hfirst, hcont⟩, hadmits⟩ := hl.2 hmore hnone
    have hstate : c.state ≠ .waitingPreface := by
      intro hwaiting
      cases hfirst hwaiting
    have hblock : c.headerContinuationStream = none := by
      cases hblock : c.headerContinuationStream with
      | none => rfl
      | some sid =>
        rw [hblock] at hcont
        exact hcont.elim
    rw [Ensures, handleFrame_dispatch hstate (by simp [continues, hblock])]
    let c₁ := c.setCore (c.toCore.log (.received (.headers g)))
    change Ensures (handleHeaders g) c₁ fun _ d => Tracks d.toCore
    apply ensures_mono (handleHeaders_begins (c := c₁) hadmits hmore)
    rintro r d ⟨htrace, hopen⟩ sid hsid
    have hbegun : block d.trace = some g.streamId := by
      rw [htrace]
      change block (.received (.headers g) :: c.trace) = some g.streamId
      rw [block, hnone, hmore]
      rfl
    rw [hbegun] at hsid
    exact hopen.trans hsid

theorem rejectFrame_tracks {e : Error} (ht : Tidy c.toCore) (hc : Tracks c.toCore)
    (he : e.ofDecoder = true) : Ensures (rejectFrame e) c fun _ d => Tracks d.toCore := by
  apply ensures_mono (rejectFrame_settles (T := later) ht (fun _ _ _ => trivial) he)
  intro r d h
  exact settlesAll_tracks hc h

/-- What is known between two turns. -/
structure Between (c : Connection) : Prop where
  tidy : Tidy c.toCore
  tracks : Tracks c.toCore

theorem turn_between (hc : Between c) (h : Turn terms it c d) : Between d := by
  obtain ⟨hnext, hpasses⟩ := h
  cases hpasses with
  | frame hdecode hrun =>
    have hl := next_frame hnext hdecode
    have hsettles := (ensures_run hrun).1 (handleFrame_settles (c := c.take _) hc.tidy hl)
    have htracks := (ensures_run hrun).1 (handleFrame_tracks (c := c.take _) hc.tidy hc.tracks hl)
    exact ⟨settlesAll_tidy hc.tidy hsettles, htracks⟩
  | @reject e _ _ hdecode hrun =>
    have hl := next_error hnext hdecode
    have he : e.ofDecoder = true := c.frameDecoder.decode_complains e (by rw [hdecode])
    have hsettles := (ensures_run hrun).1 (rejectFrame_settles (c := c.take _) hc.tidy hl he)
    have htracks := (ensures_run hrun).1 (rejectFrame_tracks (c := c.take _) hc.tidy hc.tracks he)
    exact ⟨settlesAll_tidy hc.tidy hsettles, htracks⟩

theorem turns_between (hc : Between c) (h : Relation.ReflTransGen (Turn terms it) c d) : Between d := by
  induction h with
  | refl => exact hc
  | tail _ hturn ih => exact turn_between ih hturn

theorem process_tracks {r : Except Error Unit} (hc : Between c) (h : (Call.process it).Heeds terms c)
    (hrun : process it c = (r, d)) : Tracks d.toCore := by
  obtain ⟨c', hpasses, hfinishes⟩ := process_iff.1 hrun
  obtain ⟨hturns, hnext⟩ := turns_of_heeds hc.tidy hpasses (left_lt_fuel _) h
  have hc' := turns_between hc hturns
  cases r with
  | ok u =>
    obtain ⟨rest, _, rfl⟩ := hfinishes
    exact hc'.tracks
  | error e =>
    cases hfinishes with
    | frame hdecode hstop =>
      have hl := next_frame hnext hdecode
      exact (ensures_run hstop).1 (handleFrame_tracks (c := c'.take _) hc'.tidy hc'.tracks hl)
    | @reject e' _ hdecode hstop =>
      have he : e'.ofDecoder = true := c'.frameDecoder.decode_complains e' (by rw [hdecode])
      exact (ensures_run hstop).1 (rejectFrame_tracks (c := c'.take _) hc'.tidy hc'.tracks he)

theorem exec_tracks {k : Call} (hc : Between c) (h : k.Heeds terms c) : Tracks (k.exec c).2.toCore := by
  by_cases hprocess : ∃ it, k = .process it
  · obtain ⟨it, rfl⟩ := hprocess
    have hrun : Ensures (process it) c fun _ d => Tracks d.toCore := process_tracks hc h rfl
    have hmap : Ensures (Call.process it).exec c fun _ d => Tracks d.toCore :=
      ensures_map hrun (fun _ _ h => h) fun _ _ h => h
    exact hmap
  · have hheeds : k.Heeds later c := by
      cases k with
      | process it => exact absurd ⟨it, rfl⟩ hprocess
      | _ => trivial
    exact settlesAll_tracks hc.tracks (exec_settles k hc.tidy trivial hheeds)

/-! ## The first frame -/

/-- The decoder remembers the last frame that was complete; of one that is too long it has no more than
the header. -/
theorem decode_last {d d' : FrameDecoder} {r : Except Error (Option Frame)} (h : d.decode = (r, d')) :
    d'.lastDecodedStreamId ≠ none ∨ d'.lastDecodedStreamId = d.lastDecodedStreamId ∧
      (r = .ok none ∨ ∃ e, r = .error e ∧ e.isStreamError = false) := by
  have hpayload : ∀ {d₁ : FrameDecoder} {header : FrameHeader}, d₁.decodePayload header = (r, d') →
      d₁.lastDecodedStreamId = d.lastDecodedStreamId → d'.lastDecodedStreamId ≠ none ∨
        d'.lastDecodedStreamId = d.lastDecodedStreamId ∧ r = .ok none := by
    intro d₁ header hdecode hlast
    unfold FrameDecoder.decodePayload at hdecode
    split at hdecode
    · obtain ⟨rfl, rfl⟩ := Prod.mk.inj hdecode
      exact .inr ⟨hlast, rfl⟩
    · obtain ⟨rfl, rfl⟩ := Prod.mk.inj hdecode
      exact .inl (by simp)
  unfold FrameDecoder.decode at h
  split at h
  · exact (hpayload h rfl).imp_right fun ⟨hlast, hnone⟩ => ⟨hlast, .inl hnone⟩
  · split at h
    · obtain ⟨rfl, rfl⟩ := Prod.mk.inj h
      exact .inr ⟨rfl, .inl rfl⟩
    · split at h
      · rename_i e hread
        obtain ⟨rfl, rfl⟩ := Prod.mk.inj h
        refine .inr ⟨rfl, .inr ⟨e, rfl, ?_⟩⟩
        unfold decodeHeader at hread
        split at hread
        · cases hread
        · cases hread
          rfl
      · split at h
        · obtain ⟨rfl, rfl⟩ := Prod.mk.inj h
          exact .inr ⟨rfl, .inr ⟨_, rfl, rfl⟩⟩
        · exact (hpayload h rfl).imp_right fun ⟨hlast, hnone⟩ => ⟨hlast, .inl hnone⟩

theorem passes_last (h : Passes it c d) : d.frameDecoder.lastDecodedStreamId ≠ none := by
  cases h with
  | @frame f rest _ hdecode hrun =>
    have hkept : d.frameDecoder = rest := congrArg Prod.fst ((handleFrame_intake it _).run hrun)
    rw [hkept]
    obtain hlast | ⟨_, hnone | ⟨e, herror, _⟩⟩ := decode_last hdecode
    · exact hlast
    · cases hnone
    · cases herror
  | @reject e rest _ hdecode hrun =>
    have hkept : d.frameDecoder = rest := congrArg Guards.frameDecoder ((rejectFrame_keeps _).run hrun)
    rw [hkept]
    obtain hlast | ⟨_, hnone | ⟨e', herror, hplain⟩⟩ := decode_last hdecode
    · exact hlast
    · cases hnone
    · obtain rfl := Except.error.inj herror
      rw [rejectFrame_stream hrun] at hplain
      cases hplain

/-- No frame is handled before one is complete. -/
def Unheard (c : Connection) : Prop := c.frameDecoder.lastDecodedStreamId = none → Fresh c.trace

theorem passesAll_unheard (hc : Unheard c) (h : Relation.ReflTransGen (Passes it) c d) : Unheard d := by
  cases h with
  | refl => exact hc
  | tail _ hlast =>
    intro hnone
    exact absurd hnone (passes_last hlast)

/-- An error of the connection is passed on. -/
theorem rejectFrame_plain {e : Error} {r : Except Error Unit} (hplain : e.isStreamError = false)
    (h : rejectFrame e c = (r, d)) : d = c := by
  have hsame : Ensures (rejectFrame e) c fun _ d => d = c := by
    simp only [rejectFrame, ensures_bind, ensures_get, ensures_ite]
    exact ⟨fun hstream => absurd (hstream.symm.trans hplain) (by simp), fun _ => rfl⟩
  exact (ensures_run h).1 hsame

theorem process_unheard {r : Except Error Unit} (hc : Unheard c) (hrun : process it c = (r, d)) :
    Unheard d := by
  obtain ⟨c', hpasses, hfinishes⟩ := process_iff.1 hrun
  have hc' := passesAll_unheard hc hpasses
  cases r with
  | ok u =>
    obtain ⟨rest, hdecode, rfl⟩ := hfinishes
    intro hnone
    obtain hlast | ⟨hsame, _⟩ := decode_last hdecode
    · exact absurd hnone hlast
    · exact hc' (hsame.symm.trans hnone)
  | error e =>
    intro hnone
    cases hfinishes with
    | @frame f rest hdecode hstop =>
      have hkept : d.frameDecoder = rest := congrArg Prod.fst ((handleFrame_intake it _).run hstop)
      rw [hkept] at hnone
      obtain hlast | ⟨_, hwait | ⟨e, herror, _⟩⟩ := decode_last hdecode
      · exact absurd hnone hlast
      · cases hwait
      · cases herror
    | @reject e' rest hdecode hstop =>
      have hkept : d.frameDecoder = rest := congrArg Guards.frameDecoder ((rejectFrame_keeps _).run hstop)
      rw [hkept] at hnone
      obtain hlast | ⟨hsame, hwait | ⟨e, herror, hplain⟩⟩ := decode_last hdecode
      · exact absurd hnone hlast
      · cases hwait
      · obtain rfl := Except.error.inj herror
        obtain rfl := rejectFrame_plain hplain hstop
        exact hc' (hsame.symm.trans hnone)

/-- Nothing but what frames do not cause. -/
def silent : Terms where
  frame _ _ := False
  refusal _ _ := False
  api _ _ := True

theorem change_fresh {c d : Core} {l : Label} (hl : silent.Meets c l) (h : Change c l d)
    (hc : Fresh c.trace) : Fresh d.trace := by
  obtain ⟨new, heq, hnew⟩ := h.extends
  have hcause : l.cause = [] := by
    cases l with
    | frame | refusal => exact hl.elim
    | api | inner | flush => rfl
  have hsilent : new.any isReceived = false := by
    rw [List.any_eq_false]
    intro i hi
    cases i with
    | received f => exact (hnew _ hi).elim
    | _ => simp [isReceived]
  rw [Fresh, heq, hcause, List.nil_append, List.any_append, hsilent]
  exact hc

theorem evolves_fresh {c d : Core} (h : Evolves silent c d) (hc : Fresh c.trace) : Fresh d.trace := by
  induction h with
  | refl => exact hc
  | tail _ hchange ih =>
    obtain ⟨l, hl, hchange⟩ := hchange
    exact change_fresh hl hchange ih

theorem exec_unheard {k : Call} (ht : Tidy c.toCore) (hc : Unheard c) : Unheard (k.exec c).2 := by
  by_cases hprocess : ∃ it, k = .process it
  · obtain ⟨it, rfl⟩ := hprocess
    have hrun : Ensures (process it) c fun _ d => Unheard d := process_unheard hc rfl
    have hmap : Ensures (Call.process it).exec c fun _ d => Unheard d :=
      ensures_map hrun (fun _ _ h => h) fun _ _ h => h
    exact hmap
  · have hheeds : k.Heeds silent c := by
      cases k with
      | process it => exact absurd ⟨it, rfl⟩ hprocess
      | _ => trivial
    have hspares := (exec_spares (fun it hk => hprocess ⟨it, hk⟩) c).1
    intro hnone
    have hperforms := exec_performs (T := silent) k ht trivial hheeds
    exact evolves_fresh (performs_evolves trivial hperforms)
      (hc (hspares.lastDecodedStreamId.symm.trans hnone))

/-! ## The preface -/

/-- What a server knows of the preface. -/
def Prefaced (history : List Record) (c : Connection) : Prop :=
  (c.prefaceReceived = true → Heralded history) ∧
    (c.prefaceReceived = false → c.prefaceBuffer = (fed history).take connectionPrefaceLen)

theorem fed_cons (r : Record) (history : List Record) : fed history <+: fed (r :: history) := by
  obtain ⟨k, result⟩ := r
  cases k with
  | feed data => exact List.prefix_append _ _
  | _ => exact List.prefix_refl _

theorem Heralded.cons {history : List Record} (h : Heralded history) (r : Record) :
    Heralded (r :: history) := by
  obtain hfed | ⟨r', hr', hmark⟩ := h
  · exact .inl (hfed.trans (fed_cons r history))
  · exact .inr ⟨r', List.mem_cons_of_mem r hr', hmark⟩

theorem feed_prefaced {history : List Record} (hrole : c.role = .server) (hc : Prefaced history c)
    (data : Bytes) (result : Except Error Value) :
    Ensures (feed data) c fun _ d => Prefaced (⟨.feed data, result⟩ :: history) d := by
  simp only [feed, ensures_bind, ensures_get, ensures_ite, ensures_modify, ensures_require, ensures_pure]
  constructor
  · rintro ⟨-, hreceived⟩
    have hbuffer : c.prefaceBuffer ++ data.take (min data.length
        (connectionPrefaceLen - c.prefaceBuffer.length)) =
          (fed (⟨.feed data, result⟩ :: history)).take connectionPrefaceLen := by
      rw [hc.2 hreceived, fed, List.take_append, List.append_cancel_left_eq, List.take_eq_take_iff,
        List.length_take]
      omega
    rw [hbuffer]
    refine ⟨fun hmatch => ⟨fun _ => ?_, fun hlong => ?_⟩, fun _ => ?_⟩
    · exact ⟨fun h => absurd (hreceived.symm.trans h) Bool.false_ne_true, fun _ => rfl⟩
    · refine ⟨fun _ => .inl ?_, fun h => by cases h⟩
      have hlength : connectionPreface.length = connectionPrefaceLen := by decide
      have hwhole :
          (fed (⟨.feed data, result⟩ :: history)).take connectionPrefaceLen = connectionPreface := by
        rw [hmatch, List.take_of_length_le]
        omega
      rw [← hwhole]
      exact List.take_prefix _ _
    · exact ⟨fun h => absurd (hreceived.symm.trans h) Bool.false_ne_true, fun _ => rfl⟩
  · intro hnot
    have hreceived : c.prefaceReceived = true := by simpa [hrole] using hnot
    exact ⟨fun _ => (hc.1 hreceived).cons _, fun h => absurd (hreceived.symm.trans h) (by simp)⟩

theorem processLoop_preface (it : IterOrder) (fuel : Nat) :
    Keeps (fun c : Connection => (c.prefaceReceived, c.prefaceBuffer)) (processLoop it fuel) := by
  induction fuel with
  | zero => exact keeps_pure
  | succ fuel ih =>
    apply keeps_bind
    · exact keeps_bind keeps_get fun c => keeps_bind (fun _ => rfl) fun _ => keeps_pure
    · intro r
      rcases r with e | _ | f
      · exact keeps_bind (fun c => congrArg (fun g : Guards => (g.prefaceReceived, g.prefaceBuffer))
          (rejectFrame_keeps e c)) fun _ => ih
      · exact keeps_pure
      · exact keeps_bind (fun c => congrArg Prod.snd (handleFrame_intake it f c)) fun _ => ih

theorem exec_preface {k : Call} (hfeed : ∀ data, k ≠ .feed data) (hmark : k ≠ .markPrefaceReceived)
    (c : Connection) : (k.exec c).2.prefaceReceived = c.prefaceReceived ∧
      (k.exec c).2.prefaceBuffer = c.prefaceBuffer := by
  by_cases hprocess : ∃ it, k = .process it
  · obtain ⟨it, rfl⟩ := hprocess
    have hkeeps := unitValue_keeps (keeps_bind keeps_get fun d =>
      processLoop_preface it (d.frameDecoder.buf.length + 2)) c
    exact ⟨congrArg Prod.fst hkeeps, congrArg Prod.snd hkeeps⟩
  by_cases hgoaway : ∃ errorCode debugData, k = .sendGoaway errorCode debugData
  · obtain ⟨errorCode, debugData, rfl⟩ := hgoaway
    exact ⟨rfl, rfl⟩
  · have hguards := exec_keeps hfeed hmark (fun it h => hprocess ⟨it, h⟩)
      (fun errorCode debugData h => hgoaway ⟨errorCode, debugData, h⟩) c
    exact ⟨congrArg Guards.prefaceReceived hguards, congrArg Guards.prefaceBuffer hguards⟩

theorem exec_prefaced {history : List Record} (hrole : c.role = .server) (hc : Prefaced history c)
    (k : Call) : Prefaced (⟨k, (k.exec c).1⟩ :: history) (k.exec c).2 := by
  by_cases hfeed : ∃ data, k = .feed data
  · obtain ⟨data, rfl⟩ := hfeed
    have hdone : Ensures (Call.feed data).exec c fun _ d =>
        Prefaced (⟨.feed data, ((Call.feed data).exec c).1⟩ :: history) d :=
      ensures_map (feed_prefaced hrole hc data _) (fun _ _ h => h) fun _ _ h => h
    exact hdone
  by_cases hmark : k = .markPrefaceReceived
  · subst hmark
    exact ⟨fun _ => .inr ⟨_, List.mem_cons_self, rfl⟩, fun h => by cases h⟩
  · obtain ⟨hreceived, hbuffer⟩ := exec_preface (fun data h => hfeed ⟨data, h⟩) hmark c
    have hfed : fed (⟨k, (k.exec c).1⟩ :: history) = fed history := by
      cases k with
      | feed data => exact absurd ⟨data, rfl⟩ hfeed
      | _ => rfl
    refine ⟨fun h => (hc.1 (hreceived.symm.trans h)).cons _, fun h => ?_⟩
    rw [hbuffer, hfed]
    exact hc.2 (hreceived.symm.trans h)

end

/-- A server whose peer's preface is not complete has nothing for its decoder. -/
def Unfed (c : Connection) : Prop :=
  c.role = .server → c.prefaceReceived = false →
    c.frameDecoder.buf = [] ∧ c.frameDecoder.currentHeader = none

section

variable {it : IterOrder} {c : Connection}

theorem decode_unfed (hbuf : c.frameDecoder.buf = []) (hheader : c.frameDecoder.currentHeader = none) :
    c.frameDecoder.decode = (.ok none, c.frameDecoder) := by
  rw [FrameDecoder.decode]
  simp only [hheader, hbuf, List.length_nil, frameHeaderSize, Nat.zero_lt_succ, if_true]

theorem process_unfed (hbuf : c.frameDecoder.buf = []) (hheader : c.frameDecoder.currentHeader = none) :
    process it c = (.ok (), c) := process_iff.2 ⟨c, .refl, _, decode_unfed hbuf hheader, rfl⟩

theorem exec_unfed {k : Call} (hrole : (k.exec c).2.role = c.role) (hc : Unfed c) : Unfed (k.exec c).2 := by
  intro hserver hreceived
  by_cases hprocess : ∃ it, k = .process it
  · obtain ⟨it, rfl⟩ := hprocess
    have hkept := (exec_preface (k := .process it) (fun _ h => by cases h) (fun h => by cases h) c).1
    obtain ⟨hbuf, hheader⟩ := hc (hrole ▸ hserver) (hkept ▸ hreceived)
    have hexec : ((Call.process it).exec c).2 = (process it c).2 := exec_value
    rw [hexec, process_unfed hbuf hheader]
    exact ⟨hbuf, hheader⟩
  · obtain ⟨hbefore, hsame⟩ := (exec_spares (fun it h => hprocess ⟨it, h⟩) c).1.preface hreceived
    rw [hsame (hrole ▸ hserver)]
    exact hc (hrole ▸ hserver) hbefore

theorem run_unfed {role : Role} {limits : Limits} {history : List Record}
    (h : Run (Connection.new role limits) history c) : Unfed c := by
  induction h with
  | start => exact fun _ _ => ⟨rfl, rfl⟩
  | call k hrun ih =>
    have hafter := evolves_role (run_evolves (Run.call k hrun).any)
    exact exec_unfed (hafter.trans (evolves_role (run_evolves hrun.any)).symm) ih

end

/-! ## Frames that are out of order -/

/-- The turns of `process` come to `d`, whose decoder has a complete frame, or refuses it. -/
structure Finds (T : Terms) (it : IterOrder) (c d : Connection) (r : Except Error (Option Frame)) : Prop where
  turns : Relation.ReflTransGen (Turn T it) c d
  decode : d.frameDecoder.decode.1 = r
  complete : r ≠ .ok none
  refused : ∀ e, r = .error e → e.isStreamError = true →
    ∀ sid ∈ d.frameDecoder.decode.2.lastDecodedStreamId, T.refusal d.toCore sid

def Fails (it : IterOrder) (c : Connection) : Prop :=
  ∃ e code c', process it c = (.error e, c') ∧ e.kind = .connectionError code

/-- The first frame is the peer's SETTINGS, after the preface, and a header block goes on with
CONTINUATION on its stream, or `process` returns a connection error. Where `send_goaway` has ended the
wait for the first frame, the terms are asked of it. -/
structure Enforced (T : Terms) (history : List Record) (c : Connection) : Prop where
  first : ∀ it d r, Finds T it c d r → d.frameDecoder.lastDecodedStreamId = none →
    (∀ f, r = .ok (some f) → c.state ≠ .waitingPreface → T.frame c.toCore f) →
      Fails it c ∨ (∃ f, r = .ok (some f) ∧ isInitialSettings f = true) ∧
        (c.role = .server → Heralded history)
  next : ∀ it d r sid, Finds T it c d r → block d.trace = some sid →
    Fails it c ∨ ∃ f, r = .ok (some (.continuation f)) ∧ f.streamId = sid

section

variable {it : IterOrder} {c d c' : Connection} {r : Except Error (Option Frame)}

theorem turns_pass {T : Terms} (h : Relation.ReflTransGen (Turn T it) c d) :
    Relation.ReflTransGen (Passes it) c d := Relation.ReflTransGen.mono (fun _ _ hturn => hturn.2) _ _ h

theorem fails_of_stops {e : Error} {code : ErrorCode} (h : Relation.ReflTransGen (Passes it) c d)
    (hstops : Stops it d e c') (hkind : e.kind = .connectionError code) : Fails it c :=
  ⟨e, code, c', process_iff.2 ⟨d, h, hstops⟩, hkind⟩

theorem handleFrame_unexpected (it : IterOrder) {f : Frame}
    (h : ¬ (¬ (c.state = .waitingPreface ∧ c.role = .server ∧ c.prefaceReceived = false) ∧
      (c.state = .waitingPreface → isInitialSettings f = true) ∧
        continues c.headerContinuationStream f = true)) :
    Ensures (handleFrame it f) c fun r _ =>
      ∃ e, r = .error e ∧ e.kind = .connectionError .protocolError := by
  simp only [handleFrame, ensures_bind, ensures_update, ensures_get, ensures_require]
  refine ⟨fun hpreface => ⟨fun hfirst => ⟨fun hcont => ?_, fun _ => ⟨_, rfl, rfl⟩⟩,
    fun _ => ⟨_, rfl, rfl⟩⟩, fun _ => ⟨_, rfl, rfl⟩⟩
  exact absurd ⟨hpreface, hfirst, hcont⟩ h

/-- A frame that is not admitted ends the call. -/
theorem fails_of_unexpected {f : Frame} (h : Relation.ReflTransGen (Passes it) c d)
    (hdecode : d.frameDecoder.decode.1 = .ok (some f))
    (hf : ¬ (¬ (d.state = .waitingPreface ∧ d.role = .server ∧ d.prefaceReceived = false) ∧
      (d.state = .waitingPreface → isInitialSettings f = true) ∧
        continues d.headerContinuationStream f = true)) : Fails it c := by
  have hrefused := handleFrame_unexpected it (c := d.take d.frameDecoder.decode.2) hf
  cases hrun : handleFrame it f (d.take d.frameDecoder.decode.2) with
  | mk result c' =>
    obtain ⟨e, rfl, hkind⟩ := (ensures_run hrun).1 hrefused
    exact fails_of_stops h (.frame (Prod.ext hdecode rfl) hrun) hkind

theorem connectionError_of_decoder {e : Error} (he : e.ofDecoder = true) (hplain : e.isStreamError = false) :
    ∃ code, e.kind = .connectionError code := by
  obtain ⟨kind, reason⟩ := e
  cases kind with
  | connectionError code => exact ⟨code, rfl⟩
  | streamError code => cases hplain
  | hpackError => cases he

theorem rejectFrame_fails {e : Error} (he : e.ofDecoder = true) (hidle : e.isStreamError = true →
      ∃ sid, c.frameDecoder.lastDecodedStreamId = some sid ∧ c.isIdleStream sid = true) :
    Ensures (rejectFrame e) c fun r _ => ∃ e' code, r = .error e' ∧ e'.kind = .connectionError code := by
  simp only [rejectFrame, ensures_bind, ensures_get, ensures_ite, ensures_throw]
  constructor
  · intro hstream
    obtain ⟨sid, hlast, hidle⟩ := hidle hstream
    obtain ⟨code, hcode⟩ : ∃ code, e.errorCode = some code := by
      obtain ⟨kind, reason⟩ := e
      cases kind with
      | streamError code => exact ⟨code, rfl⟩
      | connectionError code | hpackError => cases hstream
    simp only [hlast, hcode, ensures_bind, ensures_require]
    exact ⟨fun hno => absurd (hidle.symm.trans hno) (by simp), fun _ => ⟨_, code, rfl, rfl⟩⟩
  · intro hplain
    obtain ⟨code, hkind⟩ := connectionError_of_decoder he (by simpa using hplain)
    exact ⟨e, code, rfl, hkind⟩

/-- So does one that the decoder refuses, where the terms allow it on idle streams only. -/
theorem Finds.fails {e : Error} (h : Finds terms it c d (.error e))
    (hplace : Fresh d.trace ∨ block d.trace ≠ none) : Fails it c := by
  have hdecode : d.frameDecoder.decode = (.error e, d.frameDecoder.decode.2) := Prod.ext h.decode rfl
  have he : e.ofDecoder = true := d.frameDecoder.decode_complains e h.decode
  have hidle : e.isStreamError = true → ∃ sid, d.frameDecoder.decode.2.lastDecodedStreamId = some sid ∧
      d.isIdleStream sid = true := by
    intro hstream
    obtain hlast | ⟨_, hnone | ⟨e', herror, hplain⟩⟩ := decode_last hdecode
    · obtain ⟨sid, hsid⟩ := Option.ne_none_iff_exists'.1 hlast
      refine ⟨sid, hsid, ?_⟩
      by_contra hbusy
      obtain ⟨hheard, hblock⟩ := h.refused e rfl hstream sid hsid (by simpa using hbusy)
      obtain hfresh | hopen := hplace
      · exact hheard hfresh
      · exact hopen hblock
    · cases hnone
    · obtain rfl := Except.error.inj herror
      cases hplain.symm.trans hstream
  have hfails := rejectFrame_fails (c := d.take d.frameDecoder.decode.2) he hidle
  cases hrun : rejectFrame e (d.take d.frameDecoder.decode.2) with
  | mk result c' =>
    obtain ⟨e', code, rfl, hkind⟩ := (ensures_run hrun).1 hfails
    exact fails_of_stops (turns_pass h.turns) (.reject hdecode hrun) hkind

end

section

variable {role : Role} {limits : Limits} {history : List Record} {c : Connection}

theorem run_between (h : RunOf terms (Connection.new role limits) history c) : Between c := by
  refine ⟨run_tidy h, ?_⟩
  induction h with
  | start =>
    intro sid hopen
    cases hopen
  | call k _ hheeds hrun ih => exact exec_tracks ⟨run_tidy hrun, ih⟩ hheeds

theorem run_unheard (h : RunOf terms (Connection.new role limits) history c) : Unheard c := by
  induction h with
  | start => exact fun _ => rfl
  | call k _ _ hrun ih => exact exec_unheard (run_tidy hrun) ih

theorem run_prefaced {T : Terms} (h : RunOf T (Connection.new .server limits) history c) :
    Prefaced history c := by
  induction h with
  | start => exact ⟨(fun h => by cases h), fun _ => rfl⟩
  | call k _ _ hrun ih => exact exec_prefaced (evolves_role (run_evolves hrun)) ih k

/-- Every frame is in its place, or `process` fails, as long as the decoder refuses none elsewhere. -/
theorem enforced (h : RunOf terms (Connection.new role limits) history c) : Enforced terms history c := by
  have hbetween := run_between h
  constructor
  · intro it d r hfinds hfirst hterms
    obtain rfl : c = d := by
      cases hfinds.turns with
      | refl => rfl
      | tail _ hlast => exact absurd hfirst (passes_last hlast.2)
    have hfresh := run_unheard h hfirst
    have hheralded : (c.role = .server → c.prefaceReceived = true) →
        c.role = .server → Heralded history := by
      intro hreceived hserver
      obtain rfl : role = .server := (evolves_role (run_evolves h)).symm.trans hserver
      exact (run_prefaced h).1 (hreceived hserver)
    rcases r with e | _ | f
    · exact .inl (hfinds.fails (.inl hfresh))
    · exact absurd rfl hfinds.complete
    by_cases hwaiting : c.state = .waitingPreface
    · by_cases hf : ¬ (c.state = .waitingPreface ∧ c.role = .server ∧ c.prefaceReceived = false) ∧
          (c.state = .waitingPreface → isInitialSettings f = true) ∧
            continues c.headerContinuationStream f = true
      · obtain ⟨hpreface, hinitial, _⟩ := hf
        refine .inr ⟨⟨f, rfl, hinitial hwaiting⟩, hheralded fun hserver => ?_⟩
        by_contra hno
        exact hpreface ⟨hwaiting, hserver, by simpa using hno⟩
      · exact .inl (fails_of_unexpected .refl hfinds.decode hf)
    · -- The wait is over: that there is a frame at all tells that the preface came.
      have hgreets := (hterms f rfl hwaiting).1
      refine .inr ⟨⟨f, rfl, hgreets hwaiting hfresh⟩, hheralded fun hserver => ?_⟩
      by_contra hno
      obtain ⟨hbuf, hheader⟩ := run_unfed h.run hserver (by simpa using hno)
      cases (congrArg Prod.fst (decode_unfed hbuf hheader)).symm.trans hfinds.decode
  · intro it d r sid hfinds hopen
    have hcont := (turns_between hbetween hfinds.turns).tracks sid hopen
    rcases r with e | _ | f
    · exact .inl (hfinds.fails (.inr (by simp [hopen])))
    · exact absurd rfl hfinds.complete
    · by_cases hf : continues d.headerContinuationStream f = true
      · rw [hcont] at hf
        cases f with
        | continuation g => exact .inr ⟨g, rfl, by simpa [continues] using hf⟩
        | _ => cases hf
      · exact .inl (fails_of_unexpected (turns_pass hfinds.turns) hfinds.decode fun h => hf h.2.2)

end

/-- A server is sent the first part of a header block, and then these octets. -/
def openedCalls (octets : Bytes) : List Call :=
  [.feed (clientBytes [.headers ⟨1, false, false, none, getBlock, none⟩]), .process .listed, .feed octets]

theorem enforced_opened :
    ∃ history c, RunOf terms (Connection.new .server .default) history c ∧ block c.trace = some 1 ∧
      Enforced terms history c := by
  have hheeds : HeedsAll terms (openedCalls []) (Connection.new .server .default) := by decide +kernel
  have hrun := RunOf.execAll .start hheeds
  exact ⟨_, _, hrun, by decide +kernel, enforced hrun⟩

/-- PRIORITY of four octets within the block. -/
def shortPriority : Bytes := [0, 0, 4, 2, 0, 0, 0, 0, 1, 0, 0, 0, 0]

theorem enforced_any_false :
    ∃ history c, Run (Connection.new .server .default) history c ∧ ¬ Enforced .any history c := by
  let c := (execAll (openedCalls shortPriority) [] (Connection.new .server .default)).2
  have hrun := Run.execAll (c := Connection.new .server .default) .start (openedCalls shortPriority)
  have hrefused : c.frameDecoder.decode.1.isOk = false := by decide +kernel
  have hpasses : (process .listed c).1.isOk = true := by decide +kernel
  refine ⟨_, c, hrun, fun h => ?_⟩
  have hfinds : Finds .any .listed c c c.frameDecoder.decode.1 := by
    refine ⟨.refl, rfl, fun hnone => ?_, fun _ _ _ _ _ => trivial⟩
    rw [hnone] at hrefused
    cases hrefused
  obtain ⟨e, code, c', hfails, _⟩ | ⟨f, hcontinuation, _⟩ := h.next .listed c _ 1 hfinds (by decide +kernel)
  · rw [hfails] at hpasses
    cases hpasses
  · rw [hcontinuation] at hrefused
    cases hrefused

end Expected

end Http2
