import Http2.Connection.Admission
import Http2.Connection.Guards

/-! Runs in which nothing that was received was refused: every frame was taken, so nothing but
CONTINUATION came inside a header block. -/
namespace Http2

open Hpack Lib Lib.Prog Connection

/-- The same terms, of frames that are taken. -/
def Terms.framed (T : Terms) : Terms where
  frame c f := c.Takes f ∧ T.frame c f
  refusal := T.refusal
  api := T.api

variable {T : Terms} {it : IterOrder}

/-- CONTINUATION that is handled continues a block, which is not too long with it. -/
theorem handleContinuation_takes (f : ContinuationFrame) (c : Connection) :
    Ensures (handleContinuation f) c fun r _ => r = .ok () → ∃ sid, c.headerContinuationStream = some sid ∧
      f.streamId = sid ∧
        (c.headerBlockFragment ++ f.headerBlockFragment).length ≤ effectiveMaxFragment c.localSettings := by
  simp only [handleContinuation, ensures_bind, ensures_get]
  cases hblock : c.headerContinuationStream with
  | none =>
    intro h
    cases h
  | some sid =>
    simp only [ensures_bind, ensures_require, ensures_update, checkHeaderBlockFragmentSize, ensures_get]
    refine ⟨fun hsid => ⟨fun hfits => ?_, fun _ h => by cases h⟩, fun _ h => by cases h⟩
    unfold Ensures
    exact fun _ => ⟨sid, rfl, hsid, hfits⟩

/-- A frame that is handled was taken. -/
theorem handleFrame_takes {f : Frame} {c d : Connection} (h : handleFrame it f c = (.ok (), d)) :
    c.toCore.Takes f := by
  obtain ⟨_, hfirst, hcont, hdispatch⟩ := handleFrame_ok h
  refine ⟨hfirst, ?_⟩
  cases f with
  | continuation f =>
    obtain ⟨sid, hblock, hsid, hfits⟩ := (ensures_run hdispatch).1 (handleContinuation_takes f _) rfl
    rw [setCore_toCore, Core.log_headerContinuationStream] at hblock
    rw [hblock]
    exact ⟨hsid, hfits⟩
  | _ =>
    cases hblock : c.headerContinuationStream with
    | none => trivial
    | some sid => simp [continues, hblock] at hcont

/-! ## Calls -/

theorem passes_taken {c d : Connection} {fuel : Nat} (ht : Tidy c.toCore) (h : Passes it c d)
    (hheeds : c.Heeds T it (fuel + 1)) : Chain T.framed c.toCore d.toCore ∧ d.Heeds T it fuel := by
  cases h with
  | @frame f rest _ hdecode hrun =>
    obtain ⟨hl, hnext⟩ := heeds_frame hheeds hdecode
    have htakes : c.toCore.Takes f := handleFrame_takes (c := c.take rest) hrun
    have hmeets : T.framed.Meets c.toCore (.frame f) := ⟨htakes, hl⟩
    have hfollows := (ensures_run hrun).1 (handleFrame_follows (c := c.take rest) it f ht hmeets)
    exact ⟨hfollows, (ensures_run hrun).1 hnext rfl⟩
  | @reject e rest _ hdecode hrun =>
    obtain ⟨hl, hnext⟩ := heeds_reject hheeds hdecode
    have he : e.ofDecoder = true := c.frameDecoder.decode_complains e (by rw [hdecode])
    have hfollows := (ensures_run hrun).1 (rejectFrame_follows (T := T.framed) (c := c.take rest) ht hl he)
    exact ⟨hfollows, (ensures_run hrun).1 hnext rfl⟩

theorem turns_taken {c d : Connection} {fuel : Nat} (ht : Tidy c.toCore)
    (h : Relation.ReflTransGen (Passes it) c d) (hfuel : c.frameDecoder.left < fuel)
    (hheeds : c.Heeds T it fuel) : Chain T.framed c.toCore d.toCore := by
  induction h using Relation.ReflTransGen.head_induction_on generalizing fuel with
  | refl => exact .refl
  | head hpasses _ ih =>
    obtain ⟨fuel, rfl⟩ : ∃ n, fuel = n + 1 := ⟨fuel - 1, by omega⟩
    obtain ⟨hchain, hnext⟩ := passes_taken ht hpasses hheeds
    have hless := hpasses.left
    exact hchain.trans (ih (chain_tidy ht hchain) (by omega) hnext)

/-- A call of `process` that goes well handled every frame that there was. -/
theorem process_taken {c d : Connection} (ht : Tidy c.toCore)
    (hheeds : c.Heeds T it (c.frameDecoder.buf.length + 2)) (hrun : process it c = (.ok (), d)) :
    Chain T.framed c.toCore d.toCore := by
  obtain ⟨e, hpasses, rest, _, rfl⟩ := process_iff.1 hrun
  have hchain := turns_taken ht hpasses (left_lt_fuel _) hheeds
  exact hchain

theorem exec_taken {c₀ : Core} {c : Connection} (k : Call) (hc : Course T.framed c₀ c.toCore)
    (ht : Tidy c.toCore) (hl : T.api c.toCore k) (hheeds : k.Heeds T c)
    (hsound : k.isInput = true → ∃ v, (k.exec c).1 = .ok v) : Course T.framed c₀ (k.exec c).2.toCore := by
  by_cases hprocess : ∃ it, k = .process it
  · obtain ⟨it, rfl⟩ := hprocess
    obtain ⟨v, hv⟩ := hsound rfl
    exact hc.chain (process_taken ht hheeds (exec_process_ok hv))
  · have hheeds' : k.Heeds T.framed c := by
      cases k with
      | process it => exact absurd ⟨it, rfl⟩ hprocess
      | _ => trivial
    exact performs_course hc (T := T.framed) hl (exec_performs k ht hl hheeds') hsound

/-- As long as nothing received is refused, every frame is taken. -/
theorem run_taken {role : Role} {limits : Limits} {history : List Record} {c : Connection}
    (h : RunOf T (Connection.new role limits) history c) (hsound : Sound history) :
    Course T.framed (Core.new role limits) c.toCore := by
  induction h with
  | start => exact .refl
  | call k hk hheeds hrun ih =>
    exact exec_taken k (ih hsound.tail) (run_tidy hrun) hk hheeds hsound.head

/-! ## Header blocks -/

/-- Inside a block nothing is taken but CONTINUATION. -/
theorem takes_continuation {c : Core} {f : Frame} {sid : Nat} (htakes : c.Takes f)
    (hcont : c.headerContinuationStream = some sid) : ∃ cf : ContinuationFrame, f = .continuation cf := by
  have hblocked := htakes.2
  rw [hcont] at hblocked
  cases f with
  | continuation cf => exact ⟨cf, rfl⟩
  | _ => exact hblocked.elim

/-- A frame that leaves a block in progress begins it or goes on with it, and does nothing else. -/
theorem block_goes_on {c d : Core} {f : Frame} {sid : Nat} (hstep : Step c (.frame f) d) (htakes : c.Takes f)
    (hcont : d.headerContinuationStream = some sid) :
    d.streams = c.streams ∧ d.closedStreams = c.closedStreams ∧ d.trace = .received f :: c.trace ∧
      (c.headerContinuationStream = some sid ∧ d.headerEndStream = c.headerEndStream ∨
        ∃ hf, f = .headers hf ∧ hf.streamId = sid ∧ d.headerEndStream = hf.endStream ∧ c.Admits sid) := by
  cases hblock : c.headerContinuationStream with
  | some sid' =>
    obtain ⟨cf, rfl⟩ := takes_continuation htakes hblock
    cases hstep with
    | calm hcalm =>
      cases hcalm with
      | receive _ hinert => exact hinert.elim
      | credit _ _ hl => obtain hl | hl := hl <;> cases hl
      | extendBlock => exact ⟨rfl, rfl, rfl, .inl ⟨hblock.symm.trans hcont, rfl⟩⟩
      | endBlock _ _ _ _ _ _ houtcome =>
        obtain ⟨_, _, hstatus⟩ := outcome_status houtcome
        have hend : d.headerContinuationStream = none := congrArg Status.headerContinuationStream hstatus
        cases hcont.symm.trans hend
    | wake hwake => cases hwake
  | none =>
    have hturns := (Change.step hstep).turns
    rw [← d.status_headerContinuationStream] at hcont
    generalize hstatus : d.status = status at hturns hcont
    cases hturns with
    | beginBlock f hnone hadmits hfirst =>
      obtain rfl := Option.some.inj hcont
      cases hstep with
      | calm hcalm =>
        cases hcalm with
        | receive _ hinert => exact hinert.elim
        | credit _ _ hl => obtain hl | hl := hl <;> cases hl
        | beginBlock => exact ⟨rfl, rfl, rfl, .inr ⟨f, rfl, rfl, rfl, hadmits⟩⟩
        | wholeBlock _ _ _ _ _ hlast => cases hlast.symm.trans hfirst
      | wake hwake => cases hwake
    | endBlock => cases hcont
    | same | peerGoaway | settings | wholeBlock => cases hcont.symm.trans hblock

/-! ## Invariants -/

/-- A transition of such a run; data leaves outside header blocks only. -/
def Proceeds (T : Terms) (c d : Core) : Prop :=
  ∃ l, T.framed.Meets c l ∧ (l = .flush → c.headerContinuationStream = none) ∧ Step c l d

theorem emits_proceed {c d : Core} (hcont : c.headerContinuationStream = none) (h : Emits c d) :
    Relation.ReflTransGen (Proceeds T) c d ∧ d.headerContinuationStream = none := by
  induction h with
  | refl => exact ⟨.refl, hcont⟩
  | tail _ hemit ih =>
    obtain ⟨hsteps, hnone⟩ := ih
    have hstep : Step _ .flush _ := .emit hemit
    refine ⟨hsteps.tail ⟨.flush, trivial, fun _ => hnone, hstep⟩, ?_⟩
    exact (Change.step hstep).headerContinuationStream (by simp) |>.trans hnone

theorem calm_not_flush {c d : Core} {l : Label} (h : Calm c l d) : l ≠ .flush := by
  rintro rfl
  cases h with
  | credit _ _ hl => obtain hl | hl := hl <;> cases hl

/-- A frame that lets data leave ends no block and begins none. -/
theorem wake_between {c d : Core} {f : Frame} {S : Nat → Prop} (h : Wake c f S d) (htakes : c.Takes f) :
    c.headerContinuationStream = none ∧ d.headerContinuationStream = none := by
  have hnone : c.headerContinuationStream = none := by
    cases hblock : c.headerContinuationStream with
    | none => rfl
    | some sid =>
      have hblocked := htakes.2
      rw [hblock] at hblocked
      cases h <;> exact hblocked.elim
  cases h <;> exact ⟨hnone, hnone⟩

theorem chain_proceeds {c d : Core} (h : Chain T.framed c d) : Relation.ReflTransGen (Proceeds T) c d := by
  induction h with
  | refl => exact .refl
  | calm _ hcalm hl ih =>
    exact ih.tail ⟨_, hl, fun heq => absurd heq (calm_not_flush hcalm), .calm hcalm⟩
  | wake _ hwake hl hemits _ ih =>
    obtain ⟨_, hnone⟩ := wake_between hwake hl.1
    exact (ih.tail ⟨_, hl, (fun heq => by cases heq), .wake hwake⟩).trans (emits_proceed hnone hemits).1

/-- Where data is queued outside header blocks only, it leaves outside them. -/
theorem course_proceeds {c d : Core} (hT : ∀ c sid data endStream, T.api c (.sendData sid data endStream) →
    c.headerContinuationStream = none) (h : Course T.framed c d) : Relation.ReflTransGen
        (Proceeds T) c d := by
  induction h with
  | refl => exact .refl
  | chain _ hchain ih => exact ih.trans (chain_proceeds hchain)
  | start _ hstart hl ih => exact ih.tail ⟨_, hl, (fun heq => by cases heq), .start hstart⟩
  | push _ hpush hl hemits _ ih =>
    have hstep := Step.push hpush
    have hnone := ((Change.step hstep).headerContinuationStream (by simp)).trans (hT _ _ _ _ hl)
    exact (ih.tail ⟨_, hl, (fun heq => by cases heq), hstep⟩).trans (emits_proceed hnone hemits).1

/-- What holds at first and is kept holds in every state of such a run. -/
theorem proceeds_invariant {P : Core → Prop} {c d : Core} (ht : Tidy c) (h₀ : P c)
    (hstep : ∀ c d, Tidy c → P c → Proceeds T c d → P d)
    (h : Relation.ReflTransGen (Proceeds T) c d) : P d := by
  have hboth : Tidy d ∧ P d := by
    induction h with
    | refl => exact ⟨ht, h₀⟩
    | tail _ hlast ih =>
      obtain ⟨ht', hP⟩ := ih
      have hnext := hstep _ _ ht' hP hlast
      obtain ⟨l, _, _, hlast⟩ := hlast
      exact ⟨step_tidy ht' hlast, hnext⟩
  exact hboth.2

end Http2
