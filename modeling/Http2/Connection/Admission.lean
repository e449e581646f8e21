import Http2.Connection.Passes
import Http2.Connection.Trace

/-! Frames that get no further than the checks before their handlers, and requests that get no
further than those before an id is taken. The transitions do not tell such frames apart from those
that a handler refuses, and terms ask of every call, so here the transitions are of the others
only. -/
namespace Http2

open Hpack Lib Lib.Prog Connection

/-- The frame gets past the checks that come before all others: the peer's SETTINGS are first, and
nothing comes between the frames of a header block, which is no longer than it may be. -/
def Core.Takes (c : Core) (f : Frame) : Prop :=
  (c.state = .waitingPreface → isInitialSettings f = true) ∧
    match c.headerContinuationStream, f with
    | none, .continuation _ => False
    | none, _ => True
    | some sid, .continuation f => f.streamId = sid ∧
        (c.headerBlockFragment ++ f.headerBlockFragment).length ≤ effectiveMaxFragment c.localSettings
    | some _, _ => False

instance (c : Core) (f : Frame) : Decidable (c.Takes f) := by
  unfold Core.Takes
  have : Decidable (c.state = .waitingPreface → isInitialSettings f = true) := inferInstance
  split <;> infer_instance

/-- The request passes the checks of `start_stream`. -/
def Core.Grants (c : Core) (headers : List HeaderField) : Prop :=
  let protocol := findValue headers ":protocol"
  validateRequestHeaders headers = .ok () ∧ c.role = .client ∧ c.state ≠ .goawayReceived ∧
    c.remoteSettings.maxConcurrentStreams.all (c.openCount < ·.toNat) = true ∧
    (protocol.isSome → c.remoteSettings.enableConnectProtocol = true) ∧
    (protocol = some (ascii "webtransport") → c.remoteSettings.wtEnabled = true) ∧
    c.remoteSettings.maxHeaderListSize.all (calculateHeaderListSize headers ≤ ·.toNat) = true ∧
    c.nextStreamId ≤ streamIdMax

instance (c : Core) (headers : List HeaderField) : Decidable (c.Grants headers) := by
  unfold Core.Grants
  infer_instance

/-- The same terms, of frames that are taken and of requests that are granted. -/
def Terms.taken (T : Terms) : Terms where
  frame c f := c.Takes f ∧ T.frame c f
  refusal := T.refusal
  api c k := (∀ headers endStream, k = .startStream headers endStream → c.Grants headers) ∧ T.api c k

/-- What a frame, a call or a transition before it does; a frame that is not taken is recorded, and
a fragment too many is kept. -/
inductive Settles (T : Terms) (c : Core) : Core → Prop
  | change {l : Label} {d : Core} (hl : T.taken.Meets c l) (h : Change c l d) : Settles T c d
  | refuse (f : Frame) (hl : T.frame c f) (hf : ¬ c.Takes f) : Settles T c (c.log (.received f))
  | overrun (f : ContinuationFrame) (hlong : effectiveMaxFragment c.localSettings <
      (c.headerBlockFragment ++ f.headerBlockFragment).length) :
      Settles T c ((c.log (.received (.continuation f))).growBlock f.headerBlockFragment)

variable {T : Terms} {it : IterOrder}

theorem evolves_settles {c d : Core} (h : Evolves T.taken c d) :
    Relation.ReflTransGen (Settles T) c d := by
  refine Relation.ReflTransGen.mono (fun c d hstep => ?_) _ _ h
  obtain ⟨l, hl, hchange⟩ := hstep
  exact .change hl hchange

theorem follows_evolves {α : Type} {c : Core} {r : Except Error α} {d : Connection}
    (h : Follows T c r d) : Evolves T c d.toCore := by
  cases r with
  | ok v => exact steps_evolves h.steps
  | error e => exact broken_evolves h

theorem settles_tidy {c d : Core} (ht : Tidy c) (h : Settles T c d) : Tidy d := by
  cases h with
  | change _ h => exact change_tidy ht h
  | refuse f => exact ht.congr rfl ⟨rfl, rfl, rfl, rfl, Nat.le_refl _⟩
  | overrun f => exact ht.congr rfl ⟨rfl, rfl, rfl, rfl, Nat.le_refl _⟩

/-! ## Frames -/

/-- CONTINUATION that is not taken although nothing else may come: it has no block to continue, or
makes it too long. -/
theorem handleContinuation_stays {f : ContinuationFrame} {c : Connection}
    (hfirst : c.state = .waitingPreface → isInitialSettings (.continuation f) = true)
    (hcont : continues c.headerContinuationStream (.continuation f) = true)
    (hl : T.frame c.toCore (.continuation f)) (h : ¬ c.toCore.Takes (.continuation f)) :
    Ensures (handleContinuation f) (c.setCore (c.toCore.log (.received (.continuation f)))) fun _ d =>
      Relation.ReflTransGen (Settles T) c.toCore d.toCore := by
  have hrefuse := Settles.refuse (.continuation f) hl h
  simp only [handleContinuation, ensures_bind, ensures_get, setCore_toCore,
    Core.log_headerContinuationStream]
  cases hblock : c.headerContinuationStream with
  | none => exact .single hrefuse
  | some sid =>
    have hsid : f.streamId = sid := by simpa [continues, hblock] using hcont
    have hlong : effectiveMaxFragment c.localSettings <
        (c.headerBlockFragment ++ f.headerBlockFragment).length := by
      by_contra hfits
      refine h ⟨hfirst, ?_⟩
      simp only [hblock]
      exact ⟨hsid, by omega⟩
    simp only [ensures_bind, ensures_require, ensures_update, checkHeaderBlockFragmentSize,
      ensures_get, setCore_toCore]
    refine ⟨fun _ => ⟨fun hfits => ?_, fun _ => .single (.overrun f hlong)⟩, fun _ => .single hrefuse⟩
    exact absurd hfits (Nat.not_le.2 hlong)

theorem handleFrame_settles {f : Frame} {c : Connection} (ht : Tidy c.toCore)
    (hl : T.frame c.toCore f) :
    Ensures (handleFrame it f) c fun _ d => Relation.ReflTransGen (Settles T) c.toCore d.toCore := by
  by_cases htakes : c.toCore.Takes f
  · have hmeets : T.taken.Meets c.toCore (.frame f) := ⟨htakes, hl⟩
    apply ensures_mono (handleFrame_follows it f ht hmeets)
    intro r d h
    exact evolves_settles (follows_evolves h)
  · have hrefuse := Relation.ReflTransGen.single (Settles.refuse f hl htakes)
    simp only [handleFrame, ensures_bind, ensures_update, ensures_get, ensures_require, setCore_toCore,
      Core.log_state, Core.log_headerContinuationStream]
    refine ⟨fun _ => ⟨fun hfirst => ⟨fun hcont => ?_, fun _ => hrefuse⟩, fun _ => hrefuse⟩,
      fun _ => hrefuse⟩
    cases f with
    | continuation f => exact handleContinuation_stays hfirst hcont hl htakes
    | _ =>
      refine absurd ⟨hfirst, ?_⟩ htakes
      cases hblock : c.headerContinuationStream with
      | none => trivial
      | some sid => simp [continues, hblock] at hcont

theorem rejectFrame_settles {e : Error} {c : Connection} (ht : Tidy c.toCore)
    (hl : e.isStreamError = true → ∀ sid ∈ c.frameDecoder.lastDecodedStreamId, T.refusal c.toCore sid)
    (he : e.ofDecoder = true) :
    Ensures (rejectFrame e) c fun _ d => Relation.ReflTransGen (Settles T) c.toCore d.toCore := by
  have hmeets : e.isStreamError = true → ∀ sid ∈ c.frameDecoder.lastDecodedStreamId,
      T.taken.Meets c.toCore (.refusal sid) := hl
  apply ensures_mono (rejectFrame_follows ht hmeets he)
  intro r d h
  exact evolves_settles (follows_evolves h)

/-! ## Turns of `process` -/

theorem heeds_frame {c : Connection} {f : Frame} {rest : FrameDecoder} {fuel : Nat}
    (h : c.Heeds T it (fuel + 1)) (hdecode : c.frameDecoder.decode = (.ok (some f), rest)) :
    T.frame c.toCore f ∧
      Ensures (handleFrame it f) (c.take rest) fun r d => r = .ok () → d.Heeds T it fuel := by
  simp only [Connection.Heeds, hdecode] at h
  exact h

theorem heeds_reject {c : Connection} {e : Error} {rest : FrameDecoder} {fuel : Nat}
    (h : c.Heeds T it (fuel + 1)) (hdecode : c.frameDecoder.decode = (.error e, rest)) :
    (e.isStreamError = true → ∀ sid ∈ rest.lastDecodedStreamId, T.refusal c.toCore sid) ∧
      Ensures (rejectFrame e) (c.take rest) fun r d => r = .ok () → d.Heeds T it fuel := by
  simp only [Connection.Heeds, hdecode] at h
  exact h

/-- A turn that goes well settles, and what follows it heeds the terms. -/
theorem passes_settles {c d : Connection} {fuel : Nat} (ht : Tidy c.toCore) (h : Passes it c d)
    (hheeds : c.Heeds T it (fuel + 1)) :
    Relation.ReflTransGen (Settles T) c.toCore d.toCore ∧ d.Heeds T it fuel := by
  cases h with
  | frame hdecode hrun =>
    obtain ⟨hl, hnext⟩ := heeds_frame hheeds hdecode
    exact ⟨(ensures_run hrun).1 (handleFrame_settles (c := c.take _) ht hl), (ensures_run hrun).1 hnext rfl⟩
  | @reject e _ _ hdecode hrun =>
    obtain ⟨hl, hnext⟩ := heeds_reject hheeds hdecode
    have he : e.ofDecoder = true := c.frameDecoder.decode_complains e (by rw [hdecode])
    exact ⟨(ensures_run hrun).1 (rejectFrame_settles (c := c.take _) ht hl he),
      (ensures_run hrun).1 hnext rfl⟩

theorem settlesAll_tidy {c d : Core} (ht : Tidy c) (h : Relation.ReflTransGen (Settles T) c d) : Tidy d := by
  induction h with
  | refl => exact ht
  | tail _ hstep ih => exact settles_tidy ih hstep

/-- So do the turns up to any that `process` comes to; there is fuel for the rest. -/
theorem turns_settle {c d : Connection} {fuel : Nat} (ht : Tidy c.toCore)
    (h : Relation.ReflTransGen (Passes it) c d) (hfuel : c.frameDecoder.left < fuel)
    (hheeds : c.Heeds T it fuel) :
    Relation.ReflTransGen (Settles T) c.toCore d.toCore ∧ ∃ fuel', d.Heeds T it (fuel' + 1) := by
  induction h using Relation.ReflTransGen.head_induction_on generalizing fuel with
  | refl =>
    obtain ⟨fuel, rfl⟩ : ∃ n, fuel = n + 1 := ⟨fuel - 1, by omega⟩
    exact ⟨.refl, fuel, hheeds⟩
  | head hpasses _ ih =>
    obtain ⟨fuel, rfl⟩ : ∃ n, fuel = n + 1 := ⟨fuel - 1, by omega⟩
    obtain ⟨hsettles, hnext⟩ := passes_settles ht hpasses hheeds
    have hless := hpasses.left
    obtain ⟨hrest, hheeds'⟩ := ih (settlesAll_tidy ht hsettles) (by omega) hnext
    exact ⟨hsettles.trans hrest, hheeds'⟩

theorem process_settles {c : Connection} (ht : Tidy c.toCore)
    (hheeds : c.Heeds T it (c.frameDecoder.buf.length + 2)) :
    Ensures (process it) c fun _ d => Relation.ReflTransGen (Settles T) c.toCore d.toCore := by
  cases hrun : process it c with
  | mk r c' =>
    obtain ⟨d, hpasses, hfinishes⟩ := process_iff.1 hrun
    obtain ⟨hsettles, fuel, hheeds'⟩ := turns_settle ht hpasses (left_lt_fuel _) hheeds
    have ht' := settlesAll_tidy ht hsettles
    rw [ensures_run hrun]
    cases r with
    | ok u =>
      obtain ⟨rest, _, rfl⟩ := hfinishes
      exact hsettles
    | error e =>
      cases hfinishes with
      | frame hdecode hstop =>
        obtain ⟨hl, _⟩ := heeds_frame hheeds' hdecode
        exact hsettles.trans ((ensures_run hstop).1 (handleFrame_settles (c := d.take _) ht' hl))
      | @reject e' _ hdecode hstop =>
        obtain ⟨hl, _⟩ := heeds_reject hheeds' hdecode
        have he : e'.ofDecoder = true := d.frameDecoder.decode_complains e' (by rw [hdecode])
        exact hsettles.trans ((ensures_run hstop).1 (rejectFrame_settles (c := d.take _) ht' hl he))

/-- The frame that the decoder has next, or refuses. -/
def Terms.Next (T : Terms) (c : Connection) : Prop :=
  match c.frameDecoder.decode.1 with
  | .ok none => True
  | .ok (some f) => T.frame c.toCore f
  | .error e => e.isStreamError = true → ∀ sid ∈ c.frameDecoder.decode.2.lastDecodedStreamId,
      T.refusal c.toCore sid

/-- A turn that goes well and meets the terms. -/
def Turn (T : Terms) (it : IterOrder) (c d : Connection) : Prop := T.Next c ∧ Passes it c d

section

variable {c d : Connection} {fuel : Nat}

theorem next_of_heeds (h : c.Heeds T it (fuel + 1)) : T.Next c := by
  unfold Terms.Next
  cases hdecode : c.frameDecoder.decode with
  | mk r rest =>
    cases r with
    | error e => exact (heeds_reject h hdecode).1
    | ok found =>
      cases found with
      | none => trivial
      | some f => exact (heeds_frame h hdecode).1

theorem turns_of_heeds (ht : Tidy c.toCore) (h : Relation.ReflTransGen (Passes it) c d)
    (hfuel : c.frameDecoder.left < fuel) (hheeds : c.Heeds T it fuel) :
    Relation.ReflTransGen (Turn T it) c d ∧ T.Next d := by
  induction h using Relation.ReflTransGen.head_induction_on generalizing fuel with
  | refl =>
    obtain ⟨fuel, rfl⟩ : ∃ n, fuel = n + 1 := ⟨fuel - 1, by omega⟩
    exact ⟨.refl, next_of_heeds hheeds⟩
  | head hpasses _ ih =>
    obtain ⟨fuel, rfl⟩ : ∃ n, fuel = n + 1 := ⟨fuel - 1, by omega⟩
    obtain ⟨hsettles, hnext⟩ := passes_settles ht hpasses hheeds
    have hless := hpasses.left
    obtain ⟨hrest, hlast⟩ := ih (settlesAll_tidy ht hsettles) (by omega) hnext
    exact ⟨.head ⟨next_of_heeds hheeds, hpasses⟩ hrest, hlast⟩

theorem next_frame {f : Frame} {rest : FrameDecoder} (h : T.Next c)
    (hdecode : c.frameDecoder.decode = (.ok (some f), rest)) : T.frame c.toCore f := by
  simp only [Terms.Next, hdecode] at h
  exact h

theorem next_error {e : Error} {rest : FrameDecoder} (h : T.Next c)
    (hdecode : c.frameDecoder.decode = (.error e, rest)) :
    e.isStreamError = true → ∀ sid ∈ rest.lastDecodedStreamId, T.refusal c.toCore sid := by
  simp only [Terms.Next, hdecode] at h
  exact h

end

/-! ## Runs -/

theorem checkStart_grants (headers : List HeaderField) (c : Connection) :
    Ensures (checkStart headers) c fun r _ => r = .ok () → c.toCore.Grants headers := by
  simp only [checkStart, ensures_bind, ensures_lift]
  cases hvalid : validateRequestHeaders headers with
  | error e =>
    intro h
    cases h
  | ok u =>
    simp only [ensures_get, ensures_require]
    refine ⟨fun hrole =>
      ⟨fun hstate => ⟨fun hcount => ⟨fun hconnect => ⟨fun hwt => ?_, ?_⟩, ?_⟩, ?_⟩, ?_⟩, ?_⟩
    · apply ensures_mono (checkPeerListSize_fits headers c)
      rintro r c' ⟨rfl, hle⟩
      cases r with
      | error e =>
        intro h
        cases h
      | ok u =>
        simp only
        refine ⟨fun hmax _ => ?_, fun _ h => by cases h⟩
        exact ⟨hvalid, hrole, hstate, hcount, hconnect, hwt, hle rfl, hmax⟩
    all_goals
      intro _ h
      cases h

theorem startStream_grants (headers : List HeaderField) (endStream : Bool) (c : Connection) :
    Ensures (startStream headers endStream) c fun r _ => ∀ sid, r = .ok sid → c.toCore.Grants headers := by
  rw [startStream, ensures_bind]
  apply ensures_mono (checkStart_grants headers c)
  intro r c' hgrants
  cases r with
  | error e =>
    intro _ h
    cases h
  | ok u =>
    intro sid _
    exact hgrants rfl

/-- A request that is not granted changes nothing. -/
theorem startStream_settles {c : Connection} {headers : List HeaderField} {endStream : Bool}
    (hl : T.api c.toCore (.startStream headers endStream)) :
    Ensures (startStream headers endStream) c fun _ d =>
      Relation.ReflTransGen (Settles T) c.toCore d.toCore := by
  apply ensures_mono (ensures_and (startStream_spec headers endStream c)
    (startStream_grants headers endStream c))
  rintro r d ⟨hspec, hgrants⟩
  cases r with
  | error e =>
    obtain rfl : d = c := hspec
    exact .refl
  | ok sid =>
    have hmeets : T.taken.Meets c.toCore (.api (.startStream headers endStream)) := by
      refine ⟨fun headers' _ hk => ?_, hl⟩
      obtain ⟨rfl, _⟩ := Call.startStream.inj hk
      exact hgrants sid rfl
    exact .single (.change hmeets (.step (.start hspec.2)))

theorem exec_settles {c : Connection} (k : Call) (ht : Tidy c.toCore) (hl : T.api c.toCore k)
    (hheeds : k.Heeds T c) : Relation.ReflTransGen (Settles T) c.toCore (k.exec c).2.toCore := by
  by_cases hk : (∃ it, k = .process it) ∨ ∃ headers endStream, k = .startStream headers endStream
  · obtain ⟨it, rfl⟩ | ⟨headers, endStream, rfl⟩ := hk
    · have hmap : Ensures (Call.process it).exec c fun _ d =>
          Relation.ReflTransGen (Settles T) c.toCore d.toCore :=
        ensures_map (process_settles ht hheeds) (fun _ _ h => h) fun _ _ h => h
      exact hmap
    · have hmap : Ensures (Call.startStream headers endStream).exec c fun _ d =>
          Relation.ReflTransGen (Settles T) c.toCore d.toCore :=
        ensures_map (startStream_settles hl) (fun _ _ h => h) fun _ _ h => h
      exact hmap
  · obtain ⟨hprocess, hstart⟩ := not_or.1 hk
    have hmeets : T.taken.Meets c.toCore (.api k) :=
      ⟨fun headers endStream heq => absurd ⟨headers, endStream, heq⟩ hstart, hl⟩
    have hheeds' : k.Heeds T.taken c := by
      cases k with
      | process it => exact absurd ⟨it, rfl⟩ hprocess
      | _ => trivial
    exact evolves_settles (performs_evolves hmeets (exec_performs k ht hmeets hheeds'))

theorem RunOf.settles {c₀ c : Connection} {history : List Record} (h : RunOf T c₀ history c)
    (ht : Tidy c₀.toCore) : Relation.ReflTransGen (Settles T) c₀.toCore c.toCore := by
  induction h with
  | start => exact .refl
  | call k hk hheeds _ ih => exact ih.trans (exec_settles k (settlesAll_tidy ht ih) hk hheeds)

theorem run_settles {role : Role} {limits : Limits} {history : List Record} {c : Connection}
    (h : RunOf T (Connection.new role limits) history c) :
    Relation.ReflTransGen (Settles T) (Core.new role limits) c.toCore := h.settles (Tidy.new role limits)

/-- What holds at first and is kept holds in every state of a run. -/
theorem settles_invariant {P : Core → Prop} {c d : Core} (ht : Tidy c) (h₀ : P c)
    (hstep : ∀ c d, Tidy c → P c → Settles T c d → P d) (h : Relation.ReflTransGen (Settles T) c d) :
    P d := by
  induction h with
  | refl => exact h₀
  | tail hsettles hlast ih => exact hstep _ _ (settlesAll_tidy ht hsettles) ih hlast

end Http2
